import GameLift.EventBatch
import GameLift.SendStream
import GameLift.ServerBuffers

/-! The pass of `FlushClientSend` over the client list. `Disconnect` erases the
element that the range-for stands on, so a pass survives only if nobody is closed. -/

namespace GameLift

namespace Server

variable {ε : Type}

structure FlushCall where
  sid : SessionId
  answer : Bool
deriving DecidableEq, Repr

/-- `flushClient` with a record of the calls of `SendFlush`. -/
def visitClient (E : Env ε) (fuel : Nat) (p : List FlushCall × Server ε) (k : Socket) :
    Option (List FlushCall × Server ε) :=
  match p.2.mClientList.value k with
  | none => some (p.1, p.2.raise .nullPointer)
  | some sid => do
    let (r, w) ← p.2.sendFlush E fuel sid
    let w := if r.answer then w else w.disconnect E sid
    return (p.1 ++ [⟨sid, r.answer⟩],
      if k ∈ w.mClientList.keys then w else w.raise .danglingIterator)

def flushCalls (E : Env ε) (fuel : Nat) (w : Server ε) : Option (List FlushCall × Server ε) :=
  (w.mClientList.keys.sort (· ≤ ·)).foldlM (visitClient E fuel) ([], w)

/-- What the pass owes the client list it begins with. -/
structure FlushesAll (w w' : Server ε) (calls : List FlushCall) : Prop where
  valid : w'.fault = none
  once : ∀ k ∈ w.mClientList.keys, ∀ sid, w.mClientList.value k = some sid →
    (calls.map FlushCall.sid).count sid = 1
  only : ∀ call ∈ calls, ∃ k ∈ w.mClientList.keys, w.mClientList.value k = some call.sid
  removed : ∀ k ∈ w.mClientList.keys, ∀ sid, w.mClientList.value k = some sid →
    (k ∉ w'.mClientList.keys ↔ ⟨sid, false⟩ ∈ calls ∧ (w'.sessions sid).mConnected = false)
  kept : ∀ k ∈ w'.mClientList.keys,
    k ∈ w.mClientList.keys ∧ w'.mClientList.value k = w.mClientList.value k

/-- Whenever `SendFlush` fails, the linger option cannot be set, and the session stays. -/
def Spared (E : Env ε) : Server ε → List Socket → Prop
  | _, [] => True
  | w, k :: keys => ∀ sid fuel r u, w.mClientList.value k = some sid →
      w.sendFlush E fuel sid = some (r, u) →
        (r.answer = true → Spared E u keys) ∧
        (r.answer = false → (E.setLinger (u.sessions sid).mSocket u.env).1 = false ∧
          Spared E { u with env := (E.setLinger (u.sessions sid).mSocket u.env).2 } keys)

variable {E : Env ε}

theorem visitClient_snd (fuel : Nat) (p : List FlushCall × Server ε) (k : Socket) :
    (visitClient E fuel p k).map Prod.snd = flushClient E fuel p.2 k := by
  unfold visitClient flushClient
  cases p.2.mClientList.value k with
  | none => rfl
  | some sid =>
    dsimp only
    cases p.2.sendFlush E fuel sid with
    | none => rfl
    | some q => rfl

theorem visits_snd (fuel : Nat) (keys : List Socket) (p : List FlushCall × Server ε) :
    (keys.foldlM (visitClient E fuel) p).map Prod.snd = keys.foldlM (flushClient E fuel) p.2 := by
  induction keys generalizing p with
  | nil => rfl
  | cons k keys ih =>
    have hone := visitClient_snd (E := E) fuel p k
    rw [List.foldlM_cons, List.foldlM_cons, Option.bind_eq_bind, Option.bind_eq_bind, ← hone]
    cases visitClient E fuel p k with
    | none => rfl
    | some q => exact ih q

theorem flushCalls_snd (fuel : Nat) (w : Server ε) :
    (flushCalls E fuel w).map Prod.snd = flushClientSend E fuel w := visits_snd fuel _ ([], w)

structure Flushable (w : Server ε) : Prop where
  fault : w.fault = none
  table : w.TableSound
  buffered : w.Buffered

theorem Flushable.of_reachable {w : Server ε} (h : Reachable E Free ⟨w, .idle⟩)
    (hf : w.fault = none) : w.Flushable where
  fault := hf
  table := h.invariant upheld_tableSound
    (fun _ hv _ _ hk => absurd (hv.clients ▸ hk) (Finset.notMem_empty _)) (fun _ _ _ => trivial) hf
  buffered := h.buffered

theorem sendFlush_mono {w : Server ε} {fuel fuel' : Nat} {sid : SessionId}
    {p : FlushEnd × Server ε} (h : w.sendFlush E fuel sid = some p) (hle : fuel ≤ fuel') :
    w.sendFlush E fuel' sid = some p := by
  rw [sendFlush] at h ⊢
  split_ifs at h ⊢
  · exact h
  · exact Loop.loop_mono h hle
  · exact h

theorem sendFlush_unique {w : Server ε} {fuel fuel' : Nat} {sid : SessionId}
    {p p' : FlushEnd × Server ε} (h : w.sendFlush E fuel sid = some p)
    (h' : w.sendFlush E fuel' sid = some p') : p = p' := by
  have hl := sendFlush_mono h (Nat.le_max_left fuel fuel')
  have hr := sendFlush_mono h' (Nat.le_max_right fuel fuel')
  exact Option.some.inj (hl.symm.trans hr)

theorem disconnect_linger {w : Server ε} {sid : SessionId}
    (hc : (w.sessions sid).mConnected = true)
    (hl : (E.setLinger (w.sessions sid).mSocket w.env).1 = false) :
    w.disconnect E sid = { w with env := (E.setLinger (w.sessions sid).mSocket w.env).2 } := by
  simp [disconnect, hc, hl]

theorem disconnect_erases {w : Server ε} {sid : SessionId}
    (hc : (w.sessions sid).mConnected = true)
    (hl : (E.setLinger (w.sessions sid).mSocket w.env).1 = true) :
    (w.sessions sid).mSocket ∉ (w.disconnect E sid).mClientList.keys := by
  by_cases hid : (w.sessions sid).mPlayerSessionId = []
  · rw [disconnect_plain hc hl hid]
    exact Finset.notMem_erase _ _
  · rw [disconnect_removed hc hl hid]
    exact Finset.notMem_erase _ _

structure Visited (w : Server ε) (k : Socket) (sid : SessionId) (u : Server ε) : Prop where
  flushable : u.Flushable
  clients : u.mClientList = w.mClientList
  connected : ∀ s, (u.sessions s).mConnected = (w.sessions s).mConnected
  standing : (u.sessions sid).mConnected = true
  socket : (u.sessions sid).mSocket = k

theorem Flushable.visit {w : Server ε} (h : w.Flushable) {k : Socket}
    (hk : k ∈ w.mClientList.keys) :
    ∃ sid fuel r u, w.mClientList.value k = some sid ∧ w.sendFlush E fuel sid = some (r, u) ∧
      w.Visited k sid u := by
  obtain ⟨sid, hv, hown⟩ := h.table k hk
  obtain ⟨-, hsized⟩ := h.buffered sid hown.allocated
  have hstream : Streams sid [w.outgoing sid] w :=
    ⟨hsized.inv, hsized.size, by simp, h.fault⟩
  obtain ⟨fuel, r, u, hf⟩ := hstream.sendFlush_returns (E := E)
  have hq := sendFlush_quiet hf
  refine ⟨sid, fuel, r, u, hv, hf, ⟨(hstream.sendFlush hf).1.fault, ?_, ?_⟩, hq.clients,
    hq.connected, ?_, ?_⟩
  · exact h.table.of_eq hq.allocated hq.clients hq.connected hq.socket
  · exact Buffered.sendFlush hf h.buffered
  · exact (hq.connected sid).trans hown.connected
  · exact (hq.socket sid).trans hown.socket

theorem Visited.linger {w u : Server ε} {k : Socket} {sid : SessionId} (h : w.Visited k sid u)
    (e : ε) : w.Visited k sid { u with env := e } where
  flushable := ⟨h.flushable.fault, h.flushable.table.of_eq rfl rfl (fun _ => rfl) fun _ => rfl,
    h.flushable.buffered⟩
  clients := h.clients
  connected := h.connected
  standing := h.standing
  socket := h.socket

theorem visitClient_some {w u : Server ε} {fuel : Nat} {k : Socket} {sid : SessionId}
    {r : FlushEnd} (hv : w.mClientList.value k = some sid)
    (hf : w.sendFlush E fuel sid = some (r, u)) (pre : List FlushCall) :
    visitClient E fuel (pre, w) k = some (pre ++ [⟨sid, r.answer⟩],
      if k ∈ (if r.answer then u else u.disconnect E sid).mClientList.keys
      then if r.answer then u else u.disconnect E sid
      else (if r.answer then u else u.disconnect E sid).raise .danglingIterator) := by
  unfold visitClient
  rw [hv]
  dsimp only
  rw [hf]
  rfl

theorem spared_cons {w u : Server ε} {fuel : Nat} {k : Socket} {keys : List Socket}
    {sid : SessionId} {r : FlushEnd} (hv : w.mClientList.value k = some sid)
    (hf : w.sendFlush E fuel sid = some (r, u)) :
    Spared E w (k :: keys) ↔ (r.answer = true → Spared E u keys) ∧
      (r.answer = false → (E.setLinger (u.sessions sid).mSocket u.env).1 = false ∧
        Spared E { u with env := (E.setLinger (u.sessions sid).mSocket u.env).2 } keys) := by
  refine ⟨fun h => h sid fuel r u hv hf, fun h sid' fuel' r' u' hv' hf' => ?_⟩
  obtain rfl := Option.some.inj (hv.symm.trans hv')
  obtain ⟨rfl, rfl⟩ := Prod.mk.injEq .. ▸ sendFlush_unique hf hf'
  exact h

theorem Flushable.visits {w : Server ε} (h : w.Flushable) {keys : List Socket}
    (hsub : ∀ k ∈ keys, k ∈ w.mClientList.keys) (hs : Spared E w keys) :
    ∃ least calls w', calls.map FlushCall.sid = keys.filterMap w.mClientList.value ∧
      w'.fault = none ∧ w'.mClientList = w.mClientList ∧
      (∀ s, (w'.sessions s).mConnected = (w.sessions s).mConnected) ∧
      ∀ fuel, least ≤ fuel → ∀ pre,
        keys.foldlM (visitClient E fuel) (pre, w) = some (pre ++ calls, w') := by
  induction keys generalizing w with
  | nil => exact ⟨0, [], w, rfl, h.fault, rfl, fun _ => rfl, fun _ _ pre => by simp⟩
  | cons k keys ih =>
    have hin := hsub k List.mem_cons_self
    obtain ⟨sid, fuel, r, u, hv, hf, hu⟩ := h.visit (E := E) hin
    obtain ⟨hsent, hfailed⟩ := (spared_cons hv hf).mp hs
    obtain ⟨v, hvisit, hstep, hs⟩ : ∃ v, w.Visited k sid v ∧
        (if r.answer then u else u.disconnect E sid) = v ∧ Spared E v keys := by
      cases hr : r.answer with
      | true => exact ⟨u, hu, rfl, hsent hr⟩
      | false =>
        obtain ⟨hl, hrest⟩ := hfailed hr
        exact ⟨_, hu.linger _, disconnect_linger hu.standing hl, hrest⟩
    have hkeep : k ∈ v.mClientList.keys := hvisit.clients ▸ hin
    obtain ⟨least, calls, w', hcalls, hfault, hlist, hconn, hfold⟩ :=
      ih hvisit.flushable (fun k' hk' => hvisit.clients ▸ hsub k' (List.mem_cons_of_mem _ hk')) hs
    refine ⟨max fuel least, ⟨sid, r.answer⟩ :: calls, w', ?_, hfault, hlist.trans hvisit.clients,
      fun s => (hconn s).trans (hvisit.connected s), fun fuel' hle pre => ?_⟩
    · rw [List.map_cons, hcalls, List.filterMap_cons_some hv, hvisit.clients]
    · have hf' := sendFlush_mono hf ((Nat.le_max_left fuel least).trans hle)
      rw [List.foldlM_cons, visitClient_some hv hf', hstep, if_pos hkeep, Option.bind_eq_bind,
        Option.bind_some, hfold fuel' ((Nat.le_max_right fuel least).trans hle), List.append_assoc]
      rfl

theorem fault_stable : Stable E (fun w : Server ε => w.fault ≠ none) where
  quiet hq h := fun hf => h (hq.fault hf)
  disconnect := by
    intro w sid h
    rw [(disconnect_send w sid).2.2]
    exact h

/-- The first session that is closed leaves the loop on an erased element. -/
theorem Flushable.dangles {w : Server ε} (h : w.Flushable) {keys : List Socket}
    (hsub : ∀ k ∈ keys, k ∈ w.mClientList.keys) (hs : ¬Spared E w keys) {fuel : Nat}
    {w' : Server ε} (hfold : keys.foldlM (flushClient E fuel) w = some w') : w'.fault ≠ none := by
  induction keys generalizing w with
  | nil => exact absurd trivial hs
  | cons k keys ih =>
    have hin := hsub k List.mem_cons_self
    obtain ⟨sid, fuel₀, r, u, hv, hf, hu⟩ := h.visit (E := E) hin
    rw [List.foldlM_cons, Option.bind_eq_bind, Option.bind_eq_some_iff] at hfold
    obtain ⟨v, hvisit, hfold⟩ := hfold
    have hone := visitClient_snd (E := E) fuel ([], w) k
    cases hsend : w.sendFlush E fuel sid with
    | none => simp [flushClient, hv, hsend] at hvisit
    | some q =>
      obtain rfl := sendFlush_unique hf hsend
      rw [visitClient_some hv hsend, hvisit, Option.map_some, Option.some.injEq] at hone
      dsimp only at hone
      have hrest : ∀ v', w.Visited k sid v' → v = v' → ¬Spared E v' keys → w'.fault ≠ none := by
        rintro _ hv' rfl hs'
        exact ih hv'.flushable
          (fun k' hk' => hv'.clients ▸ hsub k' (List.mem_cons_of_mem _ hk')) hs' hfold
      rw [spared_cons hv hf] at hs
      cases hr : r.answer with
      | true =>
        simp only [hr, if_true, hu.clients, if_pos hin] at hone
        exact hrest u hu hone.symm fun hs' => hs ⟨fun _ => hs', fun hr' => by simp [hr] at hr'⟩
      | false =>
        simp only [hr, Bool.false_eq_true, if_false] at hone
        cases hl : (E.setLinger (u.sessions sid).mSocket u.env).1 with
        | false =>
          have hlinger := hu.linger (E.setLinger (u.sessions sid).mSocket u.env).2
          rw [disconnect_linger hu.standing hl, if_pos (hlinger.clients ▸ hin)] at hone
          refine hrest _ hlinger hone.symm fun hs' => hs ⟨fun hr' => ?_, fun _ => ⟨hl, hs'⟩⟩
          simp [hr] at hr'
        | true =>
          have hgone := disconnect_erases hu.standing hl
          rw [hu.socket] at hgone
          rw [if_neg hgone] at hone
          have hraised : v.fault ≠ none := hone ▸ raise_fault _ _
          exact fault_stable.carried.flushClients
            (fun hsend => fault_stable.quiet (sendFlush_quiet hsend)) hfold hraised

theorem Flushable.nodup {w : Server ε} (h : w.Flushable) :
    ((w.mClientList.keys.sort (· ≤ ·)).filterMap w.mClientList.value).Nodup := by
  rw [List.Nodup, List.pairwise_filterMap]
  refine (Finset.sort_nodup ..).imp_of_mem fun {k k'} hk hk' hne s hs s' hs' he => hne ?_
  obtain ⟨t, ht, hown⟩ := h.table k ((Finset.mem_sort _).mp hk)
  obtain ⟨t', ht', hown'⟩ := h.table k' ((Finset.mem_sort _).mp hk')
  obtain rfl := Option.some.inj (ht.symm.trans hs)
  obtain rfl := Option.some.inj (ht'.symm.trans hs')
  rw [← hown.socket, ← hown'.socket, he]

end Server

open Server

variable {ε : Type}

/-- A pass over the client list flushes every session once and removes exactly the
failed ones if and only if no failed session is closed on the way. -/
theorem flushClientSend_iff (E : Env ε) (w : Server ε) (h : Reachable E Free ⟨w, .idle⟩)
    (hf : w.fault = none) :
    (∃ fuel calls w', flushClientSend E fuel w = some w' ∧
      flushCalls E fuel w = some (calls, w') ∧ FlushesAll w w' calls) ↔
    Spared E w (w.mClientList.keys.sort (· ≤ ·)) := by
  have hw := Flushable.of_reachable h hf
  have hsub : ∀ k ∈ w.mClientList.keys.sort (· ≤ ·), k ∈ w.mClientList.keys := fun k hk =>
    (Finset.mem_sort _).mp hk
  constructor
  · rintro ⟨fuel, calls, w', hflush, -, hall⟩
    by_contra hs
    exact hw.dangles hsub hs hflush hall.valid
  · intro hs
    obtain ⟨fuel, calls, w', hcalls, hfault, hlist, hconn, hfold⟩ := hw.visits hsub hs
    have hcalled : flushCalls E fuel w = some (calls, w') := hfold fuel (Nat.le_refl _) []
    have hmem : ∀ sid, sid ∈ calls.map FlushCall.sid ↔
        ∃ k ∈ w.mClientList.keys, w.mClientList.value k = some sid := by
      intro sid
      rw [hcalls, List.mem_filterMap]
      simp only [Finset.mem_sort]
    refine ⟨fuel, calls, w', ?_, hcalled, hfault, fun k hk sid hv => ?_, fun call hcall => ?_,
      fun k hk sid hv => ?_, fun k hk => ?_⟩
    · rw [← flushCalls_snd, hcalled]
      rfl
    · have hnodup : (calls.map FlushCall.sid).Nodup := hcalls ▸ hw.nodup
      exact List.count_eq_one_of_mem hnodup ((hmem sid).mpr ⟨k, hk, hv⟩)
    · exact (hmem call.sid).mp (List.mem_map_of_mem hcall)
    -- Nobody is closed, so nothing is erased.
    · obtain ⟨s, hv', hown⟩ := hw.table k hk
      obtain rfl := Option.some.inj (hv.symm.trans hv')
      rw [hlist, hconn, hown.connected]
      simp [hk]
    · rw [hlist] at hk ⊢
      exact ⟨hk, rfl⟩

theorem Seated.keys {w : Server (List ReadResult)} {script : List ReadResult}
    (h : Seated w script) : w.mClientList.keys.sort (· ≤ ·) = [5, 6] := by
  rw [h.party.keys, Finset.sort_insert _ (by decide) (by decide), Finset.sort_singleton]

theorem flushClientSend_congested :
    ∃ w, Seated w [] ∧ ∃ fuel calls w', flushClientSend congested fuel w = some w' ∧
      flushCalls congested fuel w = some (calls, w') ∧ FlushesAll w w' calls := by
  obtain ⟨w, hreach, hw⟩ := congested_scripted.seated_reachable []
  refine ⟨w, hw, (flushClientSend_iff congested w hreach hw.party.fault).mpr ?_⟩
  obtain ⟨r, hplayer, hr⟩ := congested_send (hw.party.connected 0 (by decide))
    (hw.party.send 0 (by decide))
  obtain ⟨r', hstranger, hr'⟩ := congested_send (hw.party.connected 1 (by decide))
    (hw.party.send 1 (by decide))
  rw [hw.keys, spared_cons hw.party.player hplayer]
  refine ⟨fun _ => ?_, fun hfailed => by simp [hr] at hfailed⟩
  rw [spared_cons hw.party.stranger hstranger]
  exact ⟨fun _ => trivial, fun hfailed => by simp [hr'] at hfailed⟩

theorem resetting_write_sent (_ : Socket) (data : List Byte) (e : List ReadResult) (n : Nat)
    (_ : data ≠ []) (h : (WriteResult.error, e).1 = .sent n) : 0 < n ∧ n ≤ data.length := by
  cases h

theorem congested_read_le (sock : Socket) (len : Nat) (e : List ReadResult) (bytes : List Byte)
    (h : (congested.read sock len e).1 = .data bytes) : bytes.length ≤ len :=
  congested.read_le sock len e bytes h

/-- `congested`, but every peer has reset its connection. -/
def resetting : Env (List ReadResult) :=
  { congested with
    write := fun _ _ e => (.error, e)
    read_le := congested_read_le
    write_sent := resetting_write_sent }

theorem resetting_scripted : Scripted resetting :=
  ⟨fun _ _ => rfl, fun _ _ => rfl, rfl, rfl, fun _ => trivial⟩

theorem resetting_send {w : Server (List ReadResult)} {sid : SessionId}
    (hc : (w.sessions sid).mConnected = true) (hinv : (w.sessions sid).mSendBuffer.Inv)
    (hne : (w.sessions sid).mSendBuffer.contents ≠ []) :
    w.sendFlush resetting 1 sid = some (.failed, w) := by
  have hpos := hinv.extent.2.2 hne
  have hwin := hinv.window_eq
  rw [CircularBuffer.window, if_pos hpos] at hwin
  rw [sendFlush, if_pos hc, if_neg (Nat.ne_of_gt hpos), Loop.loop_of_done]
  rw [sendBody, if_pos hpos, hwin]
  rfl

/-- The player's login reply meets a reset connection: the pass erases the element
it stands on. -/
theorem flushClientSend_dangles :
    ∃ w, Reachable resetting Free ⟨w, .idle⟩ ∧ w.fault = none ∧
      ¬ ∃ fuel calls w', flushClientSend resetting fuel w = some w' ∧
        flushCalls resetting fuel w = some (calls, w') ∧ FlushesAll w w' calls := by
  obtain ⟨w, hreach, hw⟩ := resetting_scripted.seated_reachable []
  refine ⟨w, hreach, hw.party.fault, ?_⟩
  rintro ⟨fuel, calls, w', hflush, -, hall⟩
  have hne : (w.sessions 0).mSendBuffer.contents ≠ [] := by
    rw [← List.length_pos_iff, hw.party.waiting]
    decide
  have hsend := resetting_send (hw.party.connected 0 (by decide)) (hw.party.send 0 (by decide)) hne
  have hspared : ¬Spared resetting w (w.mClientList.keys.sort (· ≤ ·)) := by
    rw [hw.keys, spared_cons hw.party.player hsend]
    rintro ⟨-, hfailed⟩
    cases (hfailed rfl).1
  exact (Flushable.of_reachable hreach hw.party.fault).dangles
    (fun k hk => (Finset.mem_sort _).mp hk) hspared hflush hall.valid

end GameLift
