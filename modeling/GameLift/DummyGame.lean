import GameLift.DummyReader
import GameLift.DummyScript

/-! The server with dummy players at the other ends of its sockets. Bytes go both ways, and
a player goes on with its test when the server's answer has reached it. -/

namespace GameLift

open DummyClients (Attends ChatBuffer Course Draws Floats Player Received Receiving Stored Testing)
open Framing (stream)
open Server
open scoped List

namespace DummyClients

/-- A PlayerSession from its connection on, with the jobs for `PlayTest` that wait for
their time, the bytes it has received and the receive that is out. `early` counts the
packets it had posted when `ConnectRequest` was done. -/
structure Dummy (F : Type) where
  stored : Stored
  early : Nat
  started : Bool
  test : Testing F
  timers : Nat
  bytes : List Byte
  out : Option Nat
  receiving : Receiving

variable {F : Type}

def Dummy.connected (fl : Floats F) (block : Block) : Dummy F :=
  ⟨.nothing, 0, false, .new fl, 0, [], none, .connected block⟩

/-- What the threads do with a PlayerSession; `accepted` is what the server's socket has
taken for it. -/
inductive Dummy.Step (fl : Floats F) (playerActionRequest : Int) (P : Player)
    (accepted : List Byte) : Dummy F → Dummy F → Prop where
  | storeSessionId {d} : d.stored = .nothing →
      Step fl playerActionRequest P accepted d { d with stored := .sessionId }
  | storeIdx {d} : d.stored = .sessionId →
      Step fl playerActionRequest P accepted d { d with
        stored := .both
        early := d.test.posted.length }
  | startTest {d dir written test} : d.started = false →
      (written = true → d.receiving.mConnected = true) →
      d.test.startTest fl (P.known d.stored) dir written = .ok test →
      Step fl playerActionRequest P accepted d { d with started := true, test := test }
  -- The timer hands the job to the dispatcher, which runs one of a session at a time.
  | playTest {d n draws chat written again test} : d.timers = n + 1 →
      d.test.mPlayTestCount < 2147483647 → (written = true → d.receiving.mConnected = true) →
      d.test.playTest fl playerActionRequest (P.known d.stored) draws chat written =
        .ok (again, test) →
      Step fl playerActionRequest P accepted d { d with timers := n + again.toNat, test := test }
  | postRecv {d n receiving} : d.out = none → d.receiving.postRecv = (some n, receiving) →
      Step fl playerActionRequest P accepted d { d with out := some n, receiving := receiving }
  | recvCompletion {d n chunk fuel receiving} : d.out = some n → chunk ≠ [] → chunk.length ≤ n →
      d.bytes ++ chunk <+: accepted →
      d.receiving.recvCompletion fuel chunk = some (.ok receiving) →
      Step fl playerActionRequest P accepted d { d with
        timers := d.timers + (receiving.playTests - d.receiving.playTests)
        bytes := d.bytes ++ chunk
        out := none
        receiving := receiving }
  | disconnected {d} : Step fl playerActionRequest P accepted d { d with
      receiving := { d.receiving with mConnected := false } }

end DummyClients

open DummyClients (Dummy)

variable {ε F : Type}

/-- What of the stream of `s` has got as far as the wire. -/
def Server.delivered (w : Server ε) (s : SessionId) : List Byte :=
  if s ∈ w.allocated then w.accepted s else []

/-- Runs of the server and its players, whose bytes the server gets in the order sent. -/
inductive Playing (E : Env ε) (fl : Floats F) (playerActionRequest : Int)
    (P : SessionId → Player) (block : SessionId → Block) :
    Traffic → Config ε → (SessionId → Dummy F) → Prop where
  | init {w} : Initial E w →
      Playing E fl playerActionRequest P block .none ⟨w, .idle⟩ fun s => .connected fl (block s)
  | server {t c c' players} : Playing E fl playerActionRequest P block t c players →
      c.server.fault = none → Step E c c' →
      (∀ s, (t.after E c).received s <+: (players s).test.posted.flatten) →
      Playing E fl playerActionRequest P block (t.after E c) c' players
  | player {t c players s d} : Playing E fl playerActionRequest P block t c players →
      c.server.fault = none →
      Dummy.Step fl playerActionRequest (P s) (c.server.delivered s) (players s) d →
      Playing E fl playerActionRequest P block t c (Function.update players s d)

/-- What a player has sent and received, beside the server at the other end. -/
structure Plays (request : Int) (P : Player) (block : Block) (received : List Byte)
    (outgoing : List Byte) (sent : List ClientPacket) (d : Dummy F) : Prop where
  posted : d.test.posted = sent.map ClientPacket.toBytes
  received : received <+: stream ClientPacket.toBytes sent
  took : Received block d.bytes d.out d.receiving
  bytes : d.bytes <+: outgoing
  owns : ∀ p ∈ sent, ∃ k, (P.known k).Owns p
  early : d.early ≤ sent.length
  own : d.stored = .both → ∀ p ∈ sent.drop d.early, P.Owns p
  course : Course request d.started d.timers d.receiving.playTests d.test.mPlayTestCount sent

/-- What is queued to a session, nothing before the session is there. -/
def Server.queued (w : Server ε) (s : SessionId) : List Byte :=
  if s ∈ w.allocated then w.outgoing s else []

def AllPlay (request : Int) (P : SessionId → Player) (block : SessionId → Block)
    (t : Traffic) (c : Config ε) (players : SessionId → Dummy F) : Prop :=
  ∀ s, ∃ sent, Plays request (P s) (block s) (t.received s) (c.server.queued s) sent (players s)

variable {E : Env ε} {fl : Floats F} {request : Int} {P : SessionId → Player}
  {block : SessionId → Block} {t : Traffic} {c c' : Config ε} {players : SessionId → Dummy F}
  {s : SessionId} {d : Dummy F}

theorem ServerPacket.countP_greeting {packets : List ServerPacket}
    (h : ∀ p ∈ packets, p.Terminated) :
    (packets.countP fun p => p.kind = .login) = (packets.filterMap greeting).length := by
  induction packets with
  | nil => rfl
  | cons p packets ih =>
    have hterm := h p List.mem_cons_self
    have hrest := ih fun q hq => h q (List.mem_cons_of_mem _ hq)
    rw [List.countP_cons, hrest]
    by_cases hk : p.kind = .login
    · rw [Terminated, hk] at hterm
      obtain ⟨name, hname⟩ := Option.isSome_iff_exists.mp hterm
      have hgreeting : p.greeting = some name := by rw [greeting, if_pos hk, hname]
      simp [hk, hgreeting]
    · have hgreeting : p.greeting = none := by rw [greeting, if_neg hk]
      simp [hk, hgreeting]

theorem ClientPacket.length_logins (packets : List ClientPacket) :
    (packets.filterMap login).length ≤ packets.countP fun p => p.kind = .login := by
  induction packets with
  | nil => exact Nat.le_refl 0
  | cons p packets ih =>
    rw [List.countP_cons]
    by_cases hk : p.kind = .login
    · cases hp : p.login <;> simp [hp, hk] <;> omega
    · have hp : p.login = none := by rw [login, loginName, if_neg hk]
      simpa [hp, hk] using ih

/-- A session is sent no more LoginResults than it sends LOGINs. -/
theorem greetings_le (h : Conversing E t c) (horder : E.argOrder = .sizeFirst)
    (hf : c.server.fault = none) {sent : SessionId → List ClientPacket}
    (hsent : ∀ s, t.received s <+: stream ClientPacket.toBytes (sent s))
    (hs : s ∈ c.server.allocated) :
    ∃ packets, Speaks c.server s packets ∧
      (packets.countP fun p => p.kind = .login) ≤ (sent s).countP fun p => p.kind = .login := by
  obtain ⟨handled, packets, hheeded, hspeaks, hnames⟩ := answered_of_run h horder hf hsent hs
  refine ⟨packets, hspeaks, ?_⟩
  calc (packets.countP fun p => p.kind = .login)
      = (packets.filterMap ServerPacket.greeting).length :=
        ServerPacket.countP_greeting hspeaks.terminated
    _ ≤ (handled.filterMap ClientPacket.login).length := hnames.length_le
    _ ≤ handled.countP fun p => p.kind = .login := ClientPacket.length_logins handled
    _ ≤ (sent s).countP fun p => p.kind = .login := hheeded.first.sublist.countP_le

theorem Playing.conversing (h : Playing E fl request P block t c players) : Conversing E t c := by
  induction h with
  | init hw => exact .init hw
  | server _ hf hs _ ih => exact ih.step hf hs
  | player _ _ _ ih => exact ih

theorem received_mono {received : List Byte} {sent : List ClientPacket} {written : Bool}
    {p : ClientPacket} (h : received <+: stream ClientPacket.toBytes sent) :
    received <+: stream ClientPacket.toBytes (sent ++ if written then [p] else []) := by
  cases written with
  | false => simpa using h
  | true =>
    rw [if_pos rfl, Framing.stream_concat]
    exact h.trans (List.prefix_append _ _)

theorem posted_concat {posted : List (List Byte)} {sent : List ClientPacket} {written : Bool}
    {p : ClientPacket} (h : posted = sent.map ClientPacket.toBytes) :
    (posted ++ if written then [p.toBytes] else []) =
      (sent ++ if written then [p] else []).map ClientPacket.toBytes := by
  cases written <;> simp [h]

theorem forall_concat {sent : List ClientPacket} {written : Bool} {p : ClientPacket}
    {I : ClientPacket → Prop} (h : ∀ q ∈ sent, I q) (hp : I p) :
    ∀ q ∈ sent ++ (if written then [p] else []), I q := by
  intro q hq
  rcases List.mem_append.mp hq with hq | hq
  · exact h q hq
  · cases written with
    | false => simp at hq
    | true => exact List.mem_singleton.mp hq ▸ hp

theorem Server.delivered_prefix (w : Server ε) (s : SessionId) : w.delivered s <+: w.queued s := by
  rw [delivered, queued]
  split_ifs
  · exact List.prefix_append _ _
  · exact List.nil_prefix

/-- A packet in which the player puts what it holds of its name and index. -/
theorem Plays.post {A : Player} {ring : Block} {received outgoing : List Byte}
    {sent : List ClientPacket} {d d' : Dummy F} (h : Plays request A ring received outgoing sent d)
    {p : ClientPacket} {written : Bool} (howns : (A.known d.stored).Owns p)
    (hposted : d'.test.posted = d.test.posted ++ if written then [p.toBytes] else [])
    (htook : Received ring d'.bytes d'.out d'.receiving) (hbytes : d'.bytes <+: outgoing)
    (hstored : d'.stored = d.stored) (hearly : d'.early = d.early)
    (hcourse : Course request d'.started d'.timers d'.receiving.playTests d'.test.mPlayTestCount
      (sent ++ if written then [p] else [])) :
    Plays request A ring received outgoing (sent ++ if written then [p] else []) d' := by
  refine ⟨hposted.trans (posted_concat h.posted), received_mono h.received, htook, hbytes,
    forall_concat h.owns ⟨d.stored, howns⟩, ?_, fun hboth => ?_, hcourse⟩
  · rw [hearly, List.length_append]
    exact h.early.trans (Nat.le_add_right _ _)
  · rw [hstored] at hboth
    rw [hearly, List.drop_append_of_le_length h.early]
    rw [hboth] at howns
    exact forall_concat (h.own hboth) howns

/-- A step of one player; `hgreeted` is what its server answers for. -/
theorem Plays.step {A : Player} {ring : Block} {received delivered outgoing : List Byte}
    {sent : List ClientPacket} {d d' : Dummy F} (h : Plays request A ring received outgoing sent d)
    (hsize : ring.cells.length = clientBufsize) (hdelivered : delivered <+: outgoing)
    {packets : List ServerPacket} (hout : outgoing = stream ServerPacket.toBytes packets)
    (hgreeted : (packets.countP fun p => p.kind = .login) ≤
      sent.countP fun p => p.kind = .login)
    (hstep : Dummy.Step fl request A delivered d d') :
    ∃ sent', Plays request A ring received outgoing sent' d' := by
  cases hstep with
  | storeSessionId hnothing =>
    refine ⟨sent, h.posted, h.received, h.took, h.bytes, h.owns, h.early, fun hboth => ?_,
      h.course⟩
    cases hboth
  | storeIdx hhalf =>
    have hlen := congrArg List.length h.posted
    rw [List.length_map] at hlen
    refine ⟨sent, h.posted, h.received, h.took, h.bytes, h.owns, Nat.le_of_eq hlen,
      fun _ p hp => ?_, h.course⟩
    change p ∈ sent.drop d.test.posted.length at hp
    rw [hlen, List.drop_length] at hp
    exact absurd hp List.not_mem_nil
  | @startTest dir written test hnew hconn hstart =>
    obtain ⟨hcount, p, hp, howns, hposted⟩ := Testing.startTest_effect hstart
    refine ⟨_, h.post howns hposted h.took h.bytes rfl rfl ?_⟩
    have hcourse := h.course
    rw [hnew] at hcourse
    change Course request true _ _ test.mPlayTestCount _
    rw [hcount]
    exact hcourse.startTest hp
  | @playTest n draws chat written again test htimers hmax hconn hplay =>
    obtain ⟨hcount, p, howns, hposted, hkind⟩ := Testing.playTest_effect hplay
    refine ⟨_, h.post howns hposted h.took h.bytes rfl rfl ?_⟩
    have hcourse := h.course
    rw [htimers] at hcourse
    change Course request _ _ _ test.mPlayTestCount _
    rw [hcount]
    exact hcourse.playTest hkind
  | @postRecv n receiving hout' hpost =>
    refine ⟨sent, h.posted, h.received, ?_, h.bytes, h.owns, h.early, h.own, ?_⟩
    · have htook := h.took
      rw [hout'] at htook
      exact htook.posted hpost
    · have hsame : receiving.playTests = d.receiving.playTests := by
        have hkept := d.receiving.postRecv_playTests
        rwa [hpost] at hkept
      change Course request _ _ receiving.playTests _ _
      rw [hsame]
      exact h.course
  | @recvCompletion n chunk fuel receiving hout' hne hle hmore hcomp =>
    have htook := h.took
    rw [hout'] at htook
    have hstream : d.bytes ++ chunk <+: stream ServerPacket.toBytes packets :=
      hout ▸ hmore.trans hdelivered
    obtain ⟨taken, hattends⟩ := htook.attends hsize ((List.prefix_append ..).trans hstream)
    obtain ⟨new, r, ⟨fuel', hcomp'⟩, -, hnext⟩ := hattends.completes hle hstream
    cases Receiving.recvCompletion_unique hcomp hcomp'
    have hbefore := hattends.reads.playTests
    have hafter := hnext.reads.playTests
    obtain ⟨later, hpackets, -⟩ := hnext.pending
    refine ⟨sent, h.posted, h.received, htook.completed hne hle hcomp, hmore.trans hdelivered,
      h.owns, h.early, h.own, h.course.welcome ?_ ?_⟩
    · rw [hbefore, hafter, List.countP_append]
      exact Nat.le_add_right _ _
    · refine Nat.le_trans ?_ hgreeted
      rw [hafter, hpackets]
      exact (List.prefix_append _ _).sublist.countP_le
  | disconnected =>
    exact ⟨sent, h.posted, h.received, h.took.disconnected, h.bytes, h.owns, h.early, h.own,
      h.course⟩

theorem AllPlay.server (h : AllPlay request P block t c players) (hr : Reachable E Free c)
    (hf : c.server.fault = none) (hf' : c'.server.fault = none) (hs : Step E c c')
    (hreceived : ∀ s, (t.after E c).received s <+: (players s).test.posted.flatten) :
    AllPlay request P block (t.after E c) c' players := by
  intro s
  obtain ⟨sent, hplays⟩ := h s
  refine ⟨sent, hplays.posted, ?_, hplays.took, hplays.bytes.trans ?_, hplays.owns, hplays.early,
    hplays.own, hplays.course⟩
  · have hgot := hreceived s
    rwa [hplays.posted] at hgot
  · rw [queued, queued]
    by_cases hin : s ∈ c.server.allocated
    · obtain ⟨hin', hout⟩ := hs.outgoing_prefix hr hf hf' hin
      rwa [if_pos hin, if_pos hin']
    · rw [if_neg hin]
      exact List.nil_prefix

theorem AllPlay.player (h : AllPlay request P block t c players) (hrun : Conversing E t c)
    (horder : E.argOrder = .sizeFirst) (hsize : ∀ s, (block s).cells.length = clientBufsize)
    (hf : c.server.fault = none)
    (hstep : Dummy.Step fl request (P s) (c.server.delivered s) (players s) d) :
    AllPlay request P block t c (Function.update players s d) := by
  choose sent hplays using h
  intro u
  by_cases hu : u = s
  · subst hu
    rw [Function.update_self]
    have hsent : ∀ s, t.received s <+: stream ClientPacket.toBytes (sent s) :=
      fun s => (hplays s).received
    by_cases hin : u ∈ c.server.allocated
    · obtain ⟨packets, hspeaks, hle⟩ := greetings_le hrun horder hf hsent hin
      refine (hplays u).step (hsize u) (c.server.delivered_prefix u) ?_ hle hstep
      rw [queued, if_pos hin, hspeaks.bytes]
    · have hnothing : c.server.queued u = stream ServerPacket.toBytes [] := if_neg hin
      exact (hplays u).step (hsize u) (c.server.delivered_prefix u) hnothing (Nat.zero_le _) hstep
  · rw [Function.update_of_ne hu]
    exact ⟨sent u, hplays u⟩

theorem allPlay_of_run (h : Playing E fl request P block t c players)
    (horder : E.argOrder = .sizeFirst) (hsize : ∀ s, (block s).cells.length = clientBufsize)
    (hf : c.server.fault = none) : AllPlay request P block t c players := by
  induction h with
  | init hw =>
    intro s
    exact ⟨[], rfl, List.nil_prefix, .connected, List.nil_prefix,
      fun p hp => absurd hp List.not_mem_nil, Nat.le_refl 0,
      fun _ p hp => absurd hp List.not_mem_nil, .silent⟩
  | server hrun hbefore hs hreceived ih =>
    exact (ih hbefore).server hrun.conversing.relaying.reachable hbefore hf hs hreceived
  | player hrun hbefore hstep ih => exact (ih hf).player hrun.conversing horder hsize hf hstep

theorem Traffic.received_after (t : Traffic) (c : Config ε) (s : SessionId) :
    t.received s <+: (t.after E c).received s :=
  List.prefix_append _ _

/-- Whatever the server has read, its players may have sent before it began. -/
theorem Conversing.playing (h : Conversing E t c)
    (hinit : ∀ {w}, Initial E w → Playing E fl request P block .none ⟨w, .idle⟩ players)
    (hposted : ∀ s, t.received s <+: (players s).test.posted.flatten) :
    Playing E fl request P block t c players := by
  induction h with
  | init hw => exact hinit hw
  | @step t c c' hrun hf hs ih =>
    have hbefore := ih fun s => (t.received_after c s).trans (hposted s)
    exact hbefore.server hf hs hposted

theorem Playing.steps (h : Playing E fl request P block t c players) (hf : c.server.fault = none)
    (hsteps : Relation.ReflTransGen (Dummy.Step fl request (P s) (c.server.delivered s))
      (players s) d) :
    Playing E fl request P block t c (Function.update players s d) := by
  induction hsteps with
  | refl =>
    rw [Function.update_eq_self]
    exact h
  | @tail d d' _ hstep ih =>
    have hnext : Playing E fl request P block t c
        (Function.update (Function.update players s d) s d') := by
      refine ih.player hf ?_
      rw [Function.update_self]
      exact hstep
    rwa [Function.update_idem] at hnext

/-- A player that learns who it is before its test begins. -/
theorem Dummy.logs_in {A : Player} {accepted login : List Byte} (ring : Block) (dir : Nat)
    (hlogin : A.loginRequest = .ok login) :
    Relation.ReflTransGen (Dummy.Step fl request A accepted) (.connected fl ring)
      { Dummy.connected fl ring with
        stored := .both
        started := true
        test := ⟨fl.ofInt 480, fl.ofInt 320, dir % 8, 0, 0, [login]⟩ } := by
  have hstart : (Testing.new fl).startTest fl A dir true =
      .ok ⟨fl.ofInt 480, fl.ofInt 320, dir % 8, 0, 0, [login]⟩ := by
    rw [Testing.startTest, hlogin]
    rfl
  have hid : Dummy.Step fl request A accepted (.connected fl ring)
      { Dummy.connected fl ring with stored := .sessionId } := .storeSessionId rfl
  exact ((Relation.ReflTransGen.single hid).tail (.storeIdx rfl)).tail
    (.startTest rfl (fun _ => rfl) hstart)

/-- All that the server has sent a connected player comes in at once. -/
theorem Dummy.receives (fl : Floats F) (request : Int) (A : Player) {d : Dummy F}
    {accepted : List Byte} {packets : List ServerPacket}
    (hstream : accepted = stream ServerPacket.toBytes packets)
    (h : Attends packets d.bytes none [] d.receiving) (hbytes : d.bytes = [])
    (hout : d.out = none) (hconn : d.receiving.mConnected = true) (hsome : accepted ≠ [])
    (hshort : accepted.length ≤ 32000) :
    ∃ receiving, receiving.mConnected = true ∧
      receiving.playTests = (packets.countP fun p => p.kind = .login) ∧
      Relation.ReflTransGen (Dummy.Step fl request A accepted) d
        { d with
          timers := d.timers + (receiving.playTests - d.receiving.playTests)
          bytes := accepted
          receiving := receiving } := by
  obtain ⟨n, r, hpost, hconn', hroom, hattends⟩ := h.posts hconn
  have hall : d.bytes ++ accepted = accepted := by rw [hbytes, List.nil_append]
  obtain ⟨new, r', ⟨fuel, hcomp⟩, hsame, hnext⟩ := hattends.completes (hshort.trans hroom)
    (show d.bytes ++ accepted <+: _ from hall.symm ▸ hstream ▸ List.prefix_rfl)
  have htaken := hnext.all_taken (hall.trans hstream)
  have htests : d.receiving.playTests = r.playTests := by
    have hkept := d.receiving.postRecv_playTests
    rw [hpost] at hkept
    exact hkept.symm
  refine ⟨r', hsame.trans hconn', by rw [hnext.reads.playTests, htaken], ?_⟩
  have hposted : Dummy.Step fl request A accepted d { d with out := some n, receiving := r } :=
    .postRecv hout hpost
  have hcompleted : Dummy.Step fl request A accepted { d with out := some n, receiving := r }
      { d with
        timers := d.timers + (r'.playTests - r.playTests)
        bytes := d.bytes ++ accepted
        out := none
        receiving := r' } :=
    .recvCompletion rfl hsome (hshort.trans hroom) (hall.symm ▸ List.prefix_rfl) hcomp
  rw [hall, ← htests, ← hout] at hcompleted
  exact (Relation.ReflTransGen.single hposted).tail hcompleted

/-- Positions that are whole numbers, all drawn at 480. -/
def wholeFloats : Floats Int where
  ofInt n := n
  add := (· + ·)
  sub := (· - ·)
  image _ := px480

/-- A player that knows who it is, and has logged in. -/
def askedPlayer : Dummy Int :=
  { Dummy.connected wholeFloats clientBlock with
    stored := .both
    started := true
    test := ⟨480, 320, 0, 0, 0, [(loginRequest 7).toBytes]⟩ }

def askedPlayers : SessionId → Dummy Int :=
  Function.update (fun _ => .connected wholeFloats clientBlock) 0 askedPlayer

theorem askedPlayers_playing {w : Server ε} (hw : Initial E w) :
    Playing E wholeFloats 100 (fun _ => ⟨[7], 0⟩) (fun _ => clientBlock) .none ⟨w, .idle⟩
      askedPlayers := by
  have hname : sprintf_s (List.replicate maxSessionLen 0) [7] =
      .ok (7 :: List.replicate 127 0) := by
    rw [sprintf_s, List.length_replicate, if_pos (by decide), List.drop_replicate]
    rfl
  have hlogin : Player.loginRequest ⟨[7], 0⟩ = .ok (loginRequest 7).toBytes := by
    change (sprintf_s (List.replicate maxSessionLen 0) [7] >>= _) = _
    rw [hname]
    rfl
  exact (Playing.init hw).steps hw.fault (Dummy.logs_in clientBlock 0 hlogin)

/-- The server's answer reaches the player, and it makes a move. -/
theorem movedPlayers_playing :
    ∃ t w d, Playing playback wholeFloats 100 (fun _ => ⟨[7], 0⟩) (fun _ => clientBlock) t
      ⟨w, .idle⟩ (Function.update askedPlayers 0 d) ∧ w.fault = none ∧
      t.received 0 = (loginRequest 7).toBytes ∧ d.stored = .both ∧ d.early = 0 ∧
      d.test.mPlayTestCount = 1 ∧ d.test.posted.length = 2 := by
  obtain ⟨t', w', hrun', hw, hnone, hreceived'⟩ :=
    joined_conversing (c := 7) (by decide) [] (Nat.zero_le _)
  obtain ⟨t, w, hrun, hsame, hf, hin, hall, hlen⟩ := hrun'.flushed hw rfl hnone
  have hreceived : ∀ s, t.received s = if s = 0 then (loginRequest 7).toBytes else [] := by
    intro s
    rw [hsame, hreceived', List.append_nil]
  have hplaying : Playing playback wholeFloats 100 (fun _ => ⟨[7], 0⟩) (fun _ => clientBlock) t
      ⟨w, .idle⟩ askedPlayers := by
    refine hrun.playing (fun hw => askedPlayers_playing hw) fun s => ?_
    rw [hreceived]
    split_ifs with hs
    · rw [hs, askedPlayers, Function.update_self]
      exact List.prefix_append _ []
    · exact List.nil_prefix
  obtain ⟨hhall, -, -, hshows⟩ := hall_of_run hrun.relaying hf
  obtain ⟨packets, hspeaks, -, -⟩ := hshows.heard 0 hin
  have hstream : w.accepted 0 = stream ServerPacket.toBytes packets :=
    hall.trans hspeaks.bytes
  have hsome : w.accepted 0 ≠ [] := by
    intro hnil
    rw [hnil] at hlen
    cases hlen
  have hself : askedPlayers 0 = askedPlayer := Function.update_self ..
  have hattends : Attends packets askedPlayer.bytes none [] askedPlayer.receiving :=
    DummyClients.attends_connected List.length_replicate packets
  obtain ⟨r, hconn, hgreeted, hsteps⟩ := Dummy.receives wholeFloats 100 ⟨[7], 0⟩ hstream
    hattends rfl rfl rfl hsome (by omega)
  obtain ⟨k, hk⟩ : ∃ k, r.playTests = k + 1 := by
    refine Nat.exists_eq_succ_of_ne_zero fun hzero => ?_
    rw [hgreeted, ServerPacket.countP_greeting hspeaks.terminated, List.length_eq_zero_iff] at hzero
    exact hspeaks.greeted (hall ▸ hsome) hzero
  obtain ⟨again, test, hplay⟩ : ∃ again test, Testing.playTest wholeFloats 100 ⟨[7], 0⟩
      ⟨1, 0, 0⟩ ⟨List.replicate 99 0, rfl⟩ true
        ⟨480, 320, 0, 0, 0, [(loginRequest 7).toBytes]⟩ = .ok (again, test) := ⟨_, _, rfl⟩
  obtain ⟨hcount, p, -, hposted, -⟩ := Testing.playTest_effect hplay
  have hdelivered : w.delivered 0 = w.accepted 0 := if_pos hin
  have htimers : askedPlayer.timers + (r.playTests - askedPlayer.receiving.playTests) = k + 1 :=
    (Nat.zero_add _).trans hk
  have hcounts : askedPlayer.test.mPlayTestCount < 2147483647 :=
    show (0 : Int) < 2147483647 by decide
  have hmove := hsteps.tail (.playTest htimers hcounts (fun _ => hconn) hplay)
  rw [← hdelivered, ← hself] at hmove
  refine ⟨t, w, _, hplaying.steps hf hmove, hf, (hreceived 0).trans (if_pos rfl), ?_, ?_,
    hcount, ?_⟩
  · rw [hself]
    rfl
  · rw [hself]
    rfl
  · rw [hposted]
    rfl

end GameLift
