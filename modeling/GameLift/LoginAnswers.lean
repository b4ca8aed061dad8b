import GameLift.ChatOrder

/-! Who is answered. A LoginResult is queued only to the session whose LOGIN is being
handled, one at most, with the name that the LOGIN gave. -/

namespace GameLift

open Framing (stream)
open Server
open scoped List

def loginName (kind : Request) (image : List Byte) : Option (List Byte) :=
  if kind = .login then cString (imagePlayerId image) else none

/-- The name in a LOGIN. -/
def ClientPacket.login (p : ClientPacket) : Option (List Byte) := loginName p.kind p.toBytes

namespace Server

variable {ε : Type}

/-- Packets were queued, LoginResults among them only to `sid` and with these names. -/
structure Queues (sid : SessionId) (names : List (List Byte)) (w w' : Server ε) : Prop where
  allocated : w'.allocated = w.allocated
  outgoing : ∀ s ∈ w.allocated, ∃ new,
    w'.outgoing s = w.outgoing s ++ stream ServerPacket.toBytes new ∧
      new.filterMap ServerPacket.greeting <+ if s = sid then names else []

/-- The LoginResults queued to `s` answer LOGINs among `handled`, in their order. -/
def Answered (w : Server ε) (s : SessionId) (handled : List ClientPacket) : Prop :=
  ∃ packets, w.outgoing s = stream ServerPacket.toBytes packets ∧
    packets.filterMap ServerPacket.greeting <+ handled.filterMap ClientPacket.login

variable {E : Env ε} {u v w w' : Server ε} {sid s : SessionId} {p : ServerPacket}
  {names names' : List (List Byte)} {handled : List ClientPacket}

theorem Queues.trans (h : Queues sid names w v) (h' : Queues sid names' v u) :
    Queues sid (names ++ names') w u := by
  refine ⟨h'.allocated.trans h.allocated, fun s hs => ?_⟩
  obtain ⟨new, hnew, hsub⟩ := h.outgoing s hs
  obtain ⟨more, hmore, hsub'⟩ := h'.outgoing s (h.allocated.symm ▸ hs)
  refine ⟨new ++ more, ?_, ?_⟩
  · rw [hmore, hnew, Framing.stream_append, List.append_assoc]
  · rw [List.filterMap_append]
    by_cases he : s = sid
    · simp only [if_pos he] at hsub hsub' ⊢
      exact hsub.append hsub'
    · simp only [if_neg he] at hsub hsub' ⊢
      exact hsub.append hsub'

theorem Queues.then_quiet (h : Queues sid names w v) (h' : Queues sid [] v u) :
    Queues sid names w u := by
  have hboth := h.trans h'
  rwa [List.append_nil] at hboth

/-- Nothing was queued. -/
theorem Queues.of_same (ha : w'.allocated = w.allocated)
    (ho : ∀ s ∈ w.allocated, w'.outgoing s = w.outgoing s) : Queues sid names w w' :=
  ⟨ha, fun s hs => ⟨[], by simp [ho s hs, stream], List.nil_sublist _⟩⟩

theorem Mute.queues (h : Mute E w w') : Queues sid names w w' :=
  .of_same h.allocated h.outgoing

theorem Enters.queues (h : Enters w w' sid) : Queues sid names w w' :=
  .of_same h.allocated fun s _ => h.outgoing s

theorem Greets.queues {name : List Byte} (h : Greets w w' sid p)
    (hname : cString (imagePlayerId p.toBytes) = some name) : Queues sid [name] w w' := by
  refine ⟨h.allocated, fun s _ => ?_⟩
  rw [h.outgoing s]
  by_cases he : s = sid
  · refine ⟨[p], by simp [he, stream], ?_⟩
    have hgreeting : p.greeting = some name := by rw [ServerPacket.greeting, if_pos h.kind, hname]
    simp [he, hgreeting]
  · exact ⟨[], by simp [he, stream], List.nil_sublist _⟩

theorem Spreads.queues (h : Spreads E w w' p) : Queues sid names w w' := by
  refine ⟨h.allocated, fun s _ => ?_⟩
  rcases h.outgoing s with ho | ⟨-, ho⟩
  · exact ⟨[], by simp [ho, stream], List.nil_sublist _⟩
  · have hgreeting : p.greeting = none := by rw [ServerPacket.greeting, if_neg h.kind]
    exact ⟨[p], by simp [ho, stream], by simp [hgreeting]⟩

theorem playerLogin_queues {id : PlayerId} (hw : w.fault = none)
    (hs : (w.sessions sid).mSendBuffer.Sized) (hid : 0 ∉ id)
    (hf : (w.playerLogin E sid id).fault = none) :
    Queues sid [id] w (w.playerLogin E sid id) := by
  rcases playerLogin_effect hw hs hid hf with
    hmute | ⟨v, p, hname, hgreets, henters⟩ | ⟨v, -, henters, hmute⟩
  · exact hmute.queues
  · exact (hgreets.queues hname).then_quiet henters.queues
  · exact henters.queues.then_quiet hmute.queues

theorem Handled.queues {kind : Request} {image : List Byte}
    (h : Handled E sid w w' kind image) (hf : w'.fault = none) :
    Queues sid (loginName kind image).toList w w' := by
  cases h with
  | quiet _ hmute => exact hmute.queues
  | @login v id hkind hid hmute hv hs he =>
    have hname : loginName kind image = some id := by rw [loginName, if_pos hkind, hid]
    have hquiet : Queues sid [] w v := hmute.queues
    subst he
    rw [hname]
    exact hquiet.trans (playerLogin_queues hv hs (cString_nonzero hid) hf)
  | broadcast _ hmute hspreads =>
    have hquiet : Queues sid [] w _ := hmute.queues
    exact hquiet.trans hspreads.queues

/-- The handled packet, if it is one of `s`, answers for what was queued. -/
theorem Answered.queued (h : Answered w s handled) (hs : s ∈ w.allocated)
    (hq : Queues sid names w w') :
    ∃ packets, w'.outgoing s = stream ServerPacket.toBytes packets ∧
      packets.filterMap ServerPacket.greeting <+
        handled.filterMap ClientPacket.login ++ if s = sid then names else [] := by
  obtain ⟨packets, hbytes, hsub⟩ := h
  obtain ⟨new, hnew, hnames⟩ := hq.outgoing s hs
  refine ⟨packets ++ new, ?_, ?_⟩
  · rw [hnew, hbytes, Framing.stream_append]
  · rw [List.filterMap_append]
    exact hsub.append hnames

theorem Answered.congr (h : Answered w s handled) (ho : w'.outgoing s = w.outgoing s) :
    Answered w' s handled := by
  obtain ⟨packets, hbytes, hsub⟩ := h
  exact ⟨packets, ho.trans hbytes, hsub⟩

end Server

end GameLift
