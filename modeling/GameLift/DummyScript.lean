import GameLift.ClientRequests

/-! The test that a dummy player runs. It logs in, and once it is greeted it asks for a
chat or a move at each interval, until it asks to leave. -/

namespace GameLift

namespace DummyClients

/-- The arithmetic of `float`, and the images of its values. -/
structure Floats (F : Type) where
  ofInt : Int → F
  add : F → F → F
  sub : F → F → F
  image : F → FloatImage

/-- What the calls of `rand()` answer, by what they are for. -/
structure Draws where
  action : Nat
  dir : Nat
  vec : Nat

/-- `char chat[100]`, of which only the last byte is set. -/
structure ChatBuffer where
  bytes : List Byte
  length_bytes : bytes.length = 99

/-- What `ConnectRequest` stores in a PlayerSession. -/
structure Player where
  mPlayerSessionId : List Byte
  mPlayerIdx : Int

/-- How much of it has been stored: `ConnectRequest` gets to it after its call of `ConnectEx`. -/
inductive Stored where
  | nothing
  | sessionId
  | both

/-- Of a PlayerSession what its test reads and writes; `posted` records what `PostSend`
has written to the send buffer. -/
structure Testing (F : Type) where
  mPosX : F
  mPosY : F
  mCurrDir : Nat
  mMoveStep : Int
  mPlayTestCount : Int
  posted : List (List Byte)

def strcpy_s (dest s : List Byte) : Except Fault (List Byte) := sprintf_s dest s

variable {F : Type}

namespace Player

/-- What the PlayerSession holds by then. -/
def known (P : Player) : Stored → Player
  | .nothing => ⟨[], -1⟩
  | .sessionId => ⟨P.mPlayerSessionId, -1⟩
  | .both => P

def name (P : Player) : CText := .ofString P.mPlayerSessionId

def loginRequest (P : Player) : Except Fault (List Byte) := do
  let mPlayerId ← sprintf_s (List.replicate maxSessionLen 0) P.name.bytes
  return headerBytes (sizeofPacketHeader + maxSessionLen) pktCsLogin ++ mPlayerId

def exitRequest (P : Player) : Except Fault (List Byte) := do
  let mPlayerId ← sprintf_s (List.replicate maxSessionLen 0) P.name.bytes
  return headerBytes (sizeofPacketHeader + maxSessionLen) pktCsExit ++ mPlayerId

def chatRequest (P : Player) (chat : ChatBuffer) : Except Fault (List Byte) := do
  let mPlayerId ← sprintf_s (List.replicate maxSessionLen 0) P.name.bytes
  let mChat ← strcpy_s (List.replicate maxChatLen 0) (CText.ofString chat.bytes).bytes
  return headerBytes (sizeofPacketHeader + maxSessionLen + maxChatLen) pktCsChat ++
    (mPlayerId ++ mChat)

def moveRequest (P : Player) (x y : FloatImage) : List Byte :=
  headerBytes (sizeofPacketHeader + 4 + 4 + 4) pktCsMove ++
    (int32Bytes P.mPlayerIdx ++ (x.bytes ++ y.bytes))

/-- A packet of this player, with its own name or index in it. -/
def Owns (P : Player) (p : ClientPacket) : Prop :=
  match p.kind with
  | .login | .exit => cString (imagePlayerId p.toBytes) = some P.name.bytes
  | .chat => cString (imagePlayerId p.toBytes) = some P.name.bytes ∧
      ∃ chat, cString (imageChat p.toBytes) = some chat ∧ chat.length ≤ 99
  | .move => ∃ x y : FloatImage,
      imageMove p.toBytes = int32Bytes P.mPlayerIdx ++ (x.bytes ++ y.bytes)

end Player

namespace Testing

def new (fl : Floats F) : Testing F := ⟨fl.ofInt 0, fl.ofInt 0, 0, 0, 0, []⟩

/-- `written` tells whether `PostSend` found the session connected and room for the data. -/
def postSend (written : Bool) (data : List Byte) (t : Testing F) : Testing F :=
  if written then { t with posted := t.posted ++ [data] } else t

def startTest (fl : Floats F) (P : Player) (dir : Nat) (written : Bool) (t : Testing F) :
    Except Fault (Testing F) := do
  let t := { t with mPosX := fl.ofInt 480, mPosY := fl.ofInt 320, mCurrDir := dir % 8 }
  let outPacket ← P.loginRequest
  return t.postSend written outPacket

def endTest (P : Player) (written : Bool) (t : Testing F) : Except Fault (Testing F) := do
  let outPacket ← P.exitRequest
  return t.postSend written outPacket

def setNextPos (fl : Floats F) (d : Draws) (t : Testing F) : Testing F :=
  let t :=
    if t.mMoveStep = 10 then { t with mMoveStep := 0, mCurrDir := d.dir % 8 }
    else { t with mMoveStep := t.mMoveStep + 1 }
  let vec := fl.add (fl.ofInt (d.vec % 10)) (fl.ofInt 3)
  let far := fl.add vec (fl.ofInt 3)
  match t.mCurrDir with
  | 0 => { t with mPosY := fl.add t.mPosY vec }
  | 1 => { t with mPosY := fl.add t.mPosY vec, mPosX := fl.add t.mPosX far }
  | 2 => { t with mPosX := fl.add t.mPosX far }
  | 3 => { t with mPosX := fl.add t.mPosX far, mPosY := fl.sub t.mPosY vec }
  | 4 => { t with mPosY := fl.sub t.mPosY vec }
  | 5 => { t with mPosY := fl.sub t.mPosY vec, mPosX := fl.sub t.mPosX far }
  | 6 => { t with mPosX := fl.sub t.mPosX far }
  | 7 => { t with mPosX := fl.sub t.mPosX far, mPosY := fl.add t.mPosY vec }
  | _ => t

/-- The answer tells whether `PlayTest` is to be called again after the interval. -/
def playTest (fl : Floats F) (playerActionRequest : Int) (P : Player) (d : Draws)
    (chat : ChatBuffer) (written : Bool) (t : Testing F) : Except Fault (Bool × Testing F) := do
  let t := { t with mPlayTestCount := t.mPlayTestCount + 1 }
  if playerActionRequest = t.mPlayTestCount then
    let t ← t.endTest P written
    return (false, t)
  else if d.action % 10 = 0 then
    let outPacket ← P.chatRequest chat
    return (true, t.postSend written outPacket)
  else
    let t := t.setNextPos fl d
    return (true, t.postSend written (P.moveRequest (fl.image t.mPosX) (fl.image t.mPosY)))

end Testing

/-- The course of a test: how many jobs for `PlayTest` wait, how often the player was
greeted, how often `PlayTest` has run, and what was sent. -/
inductive Course (playerActionRequest : Int) :
    Bool → Nat → Nat → Int → List ClientPacket → Prop where
  | silent {started} : Course playerActionRequest started 0 0 0 []
  | asked {login} : login.kind = .login → Course playerActionRequest true 0 0 0 [login]
  | playing {login actions count} : login.kind = .login →
      (∀ p ∈ actions, p.kind = .chat ∨ p.kind = .move) → (actions.length : Int) ≤ count →
      (0 < playerActionRequest → count < playerActionRequest) →
      Course playerActionRequest true 1 1 count (login :: actions)
  | ended {login actions exits} : login.kind = .login →
      (∀ p ∈ actions, p.kind = .chat ∨ p.kind = .move) →
      (actions.length : Int) < playerActionRequest → (∀ p ∈ exits, p.kind = .exit) →
      exits.length ≤ 1 →
      Course playerActionRequest true 0 1 playerActionRequest (login :: (actions ++ exits))

variable {P : Player} {fl : Floats F} {request : Int} {written again started : Bool}
  {t t' : Testing F} {d : Draws} {chat : ChatBuffer} {data : List Byte}
  {timers greeted : Nat} {packets : List ClientPacket}

theorem CText.length_ofString (s : List Byte) : (CText.ofString s).bytes.length ≤ s.length :=
  (List.takeWhile_prefix _).length_le

namespace Player

/-- A struct whose only field is the player's name. -/
theorem named_packet {kind : Request} {out : List Byte}
    (hkind : kind = .login ∨ kind = .exit)
    (h : sprintf_s (List.replicate maxSessionLen 0) P.name.bytes = .ok out) :
    ∃ p : ClientPacket, headerBytes kind.structSize kind.pktType ++ out = p.toBytes ∧
      p.kind = kind ∧ cString (imagePlayerId p.toBytes) = some P.name.bytes := by
  obtain ⟨-, hout, hlen⟩ := sprintf_s_eq h
  rw [List.length_replicate] at hlen
  have hpayload : sizeofPacketHeader + out.length = kind.structSize := by
    rcases hkind with rfl | rfl <;> rw [hlen] <;> rfl
  refine ⟨⟨kind, out, hpayload⟩, rfl, rfl, ?_⟩
  have hfield : imagePlayerId (headerBytes kind.structSize kind.pktType ++ (out ++ [])) = out :=
    Region.slice_middle rfl hlen
  rw [List.append_nil] at hfield
  change cString (imagePlayerId (headerBytes _ _ ++ out)) = _
  rw [hfield, hout]
  exact cString_terminated P.name.nonzero _

theorem loginRequest_packet (h : P.loginRequest = .ok data) :
    ∃ p : ClientPacket, data = p.toBytes ∧ p.kind = .login ∧ P.Owns p := by
  rw [loginRequest] at h
  cases hname : sprintf_s (List.replicate maxSessionLen 0) P.name.bytes with
  | error f => simp [hname, bind, Except.bind] at h
  | ok out =>
    rw [hname, ok_bind, pure_eq_ok, Except.ok.injEq] at h
    obtain ⟨p, hp, hkind, hid⟩ := named_packet (Or.inl rfl) hname
    exact ⟨p, h.symm.trans hp, hkind, by rw [Owns, hkind]; exact hid⟩

theorem exitRequest_packet (h : P.exitRequest = .ok data) :
    ∃ p : ClientPacket, data = p.toBytes ∧ p.kind = .exit ∧ P.Owns p := by
  rw [exitRequest] at h
  cases hname : sprintf_s (List.replicate maxSessionLen 0) P.name.bytes with
  | error f => simp [hname, bind, Except.bind] at h
  | ok out =>
    rw [hname, ok_bind, pure_eq_ok, Except.ok.injEq] at h
    obtain ⟨p, hp, hkind, hid⟩ := named_packet (Or.inr rfl) hname
    exact ⟨p, h.symm.trans hp, hkind, by rw [Owns, hkind]; exact hid⟩

theorem chatRequest_packet (h : P.chatRequest chat = .ok data) :
    ∃ p : ClientPacket, data = p.toBytes ∧ p.kind = .chat ∧ P.Owns p := by
  rw [chatRequest] at h
  cases hname : sprintf_s (List.replicate maxSessionLen 0) P.name.bytes with
  | error f => simp [hname, bind, Except.bind] at h
  | ok name =>
    cases htext : strcpy_s (List.replicate maxChatLen 0) (CText.ofString chat.bytes).bytes with
    | error f => simp [hname, htext, bind, Except.bind] at h
    | ok field =>
      rw [hname, ok_bind, htext, ok_bind, pure_eq_ok, Except.ok.injEq] at h
      obtain ⟨-, hnameeq, hnamelen⟩ := sprintf_s_eq hname
      obtain ⟨-, hfieldeq, hfieldlen⟩ := sprintf_s_eq htext
      rw [List.length_replicate] at hnamelen hfieldlen
      have hpayload : sizeofPacketHeader + (name ++ field).length = Request.chat.structSize := by
        rw [List.length_append, hnamelen, hfieldlen]
        rfl
      have hid : imagePlayerId data = name := by
        rw [← h, imagePlayerId]
        exact Region.slice_middle rfl hnamelen
      have hchat : imageChat data = field := by
        have hslice : Region.slice (headerBytes (sizeofPacketHeader + maxSessionLen + maxChatLen)
            pktCsChat ++ name ++ (field ++ [])) (sizeofPacketHeader + maxSessionLen) maxChatLen =
              field := by
          refine Region.slice_middle ?_ hfieldlen
          rw [List.length_append, hnamelen]
          rfl
        rw [← h, imageChat]
        rwa [List.append_nil, List.append_assoc] at hslice
      have hbytes : ClientPacket.toBytes ⟨.chat, name ++ field, hpayload⟩ = data := h
      have hshort := CText.length_ofString chat.bytes
      rw [chat.length_bytes] at hshort
      refine ⟨⟨.chat, name ++ field, hpayload⟩, hbytes.symm, rfl, ?_, _, ?_, hshort⟩
      · rw [hbytes, hid, hnameeq]
        exact cString_terminated P.name.nonzero _
      · rw [hbytes, hchat, hfieldeq]
        exact cString_terminated (CText.ofString chat.bytes).nonzero _

theorem moveRequest_packet (P : Player) (x y : FloatImage) :
    ∃ p : ClientPacket, P.moveRequest x y = p.toBytes ∧ p.kind = .move ∧ P.Owns p := by
  have hlen : (int32Bytes P.mPlayerIdx ++ (x.bytes ++ y.bytes)).length = 12 := by
    rw [List.length_append, List.length_append, x.length_bytes, y.length_bytes]
    rfl
  have hpayload : sizeofPacketHeader + (int32Bytes P.mPlayerIdx ++ (x.bytes ++ y.bytes)).length =
      Request.move.structSize := by
    rw [hlen]
    rfl
  have hslice : Region.slice (headerBytes Request.move.structSize Request.move.pktType ++
      (int32Bytes P.mPlayerIdx ++ (x.bytes ++ y.bytes) ++ [])) sizeofPacketHeader 12 =
        int32Bytes P.mPlayerIdx ++ (x.bytes ++ y.bytes) := Region.slice_middle rfl hlen
  rw [List.append_nil] at hslice
  exact ⟨⟨.move, _, hpayload⟩, rfl, rfl, x, y, hslice⟩

end Player

namespace Testing

@[simp] theorem postSend_count (t : Testing F) :
    (t.postSend written data).mPlayTestCount = t.mPlayTestCount := by
  cases written <;> rfl

@[simp] theorem postSend_posted (t : Testing F) :
    (t.postSend written data).posted = t.posted ++ if written then [data] else [] := by
  cases written <;> simp [postSend]

@[simp] theorem setNextPos_count (t : Testing F) :
    (t.setNextPos fl d).mPlayTestCount = t.mPlayTestCount := by
  unfold setNextPos
  dsimp only
  split_ifs <;>
    split <;>
    rfl

@[simp] theorem setNextPos_posted (t : Testing F) :
    (t.setNextPos fl d).posted = t.posted := by
  unfold setNextPos
  dsimp only
  split_ifs <;>
    split <;>
    rfl

theorem startTest_effect {dir : Nat} (h : t.startTest fl P dir written = .ok t') :
    t'.mPlayTestCount = t.mPlayTestCount ∧ ∃ p : ClientPacket, p.kind = .login ∧ P.Owns p ∧
      t'.posted = t.posted ++ if written then [p.toBytes] else [] := by
  rw [startTest] at h
  cases hout : P.loginRequest with
  | error f => simp [hout, bind, Except.bind] at h
  | ok data =>
    rw [hout, ok_bind, pure_eq_ok, Except.ok.injEq] at h
    obtain ⟨p, rfl, hkind, howns⟩ := Player.loginRequest_packet hout
    rw [← h]
    exact ⟨by simp, p, hkind, howns, by simp⟩

/-- `PlayTest` counts, sends a packet and is called again, but for the one time that the
count is what it was told. -/
theorem playTest_effect (h : t.playTest fl request P d chat written = .ok (again, t')) :
    t'.mPlayTestCount = t.mPlayTestCount + 1 ∧ ∃ p : ClientPacket, P.Owns p ∧
      t'.posted = t.posted ++ (if written then [p.toBytes] else []) ∧
      ((request = t.mPlayTestCount + 1 ∧ again = false ∧ p.kind = .exit) ∨
        (request ≠ t.mPlayTestCount + 1 ∧ again = true ∧ (p.kind = .chat ∨ p.kind = .move))) := by
  rw [playTest] at h
  dsimp only at h
  split_ifs at h with hend hchat
  · rw [endTest] at h
    cases hout : P.exitRequest with
    | error f => simp [hout, bind, Except.bind] at h
    | ok data =>
      rw [hout, ok_bind, pure_eq_ok, ok_bind, pure_eq_ok, Except.ok.injEq, Prod.mk.injEq] at h
      obtain ⟨p, rfl, hkind, howns⟩ := Player.exitRequest_packet hout
      rw [← h.2]
      exact ⟨by simp, p, howns, by simp, Or.inl ⟨hend, h.1.symm, hkind⟩⟩
  · cases hout : P.chatRequest chat with
    | error f => simp [hout, bind, Except.bind] at h
    | ok data =>
      rw [hout, ok_bind, pure_eq_ok, Except.ok.injEq, Prod.mk.injEq] at h
      obtain ⟨p, rfl, hkind, howns⟩ := Player.chatRequest_packet hout
      rw [← h.2]
      exact ⟨by simp, p, howns, by simp, Or.inr ⟨hend, h.1.symm, Or.inl hkind⟩⟩
  · rw [pure_eq_ok, Except.ok.injEq, Prod.mk.injEq] at h
    obtain ⟨p, hp, hkind, howns⟩ := Player.moveRequest_packet P
      (fl.image (setNextPos fl d { t with mPlayTestCount := t.mPlayTestCount + 1 }).mPosX)
      (fl.image (setNextPos fl d { t with mPlayTestCount := t.mPlayTestCount + 1 }).mPosY)
    rw [← h.2, hp]
    exact ⟨by simp, p, howns, by simp, Or.inr ⟨hend, h.1.symm, Or.inr hkind⟩⟩

end Testing

theorem Course.startTest (h : Course request false timers greeted t.mPlayTestCount packets)
    {p : ClientPacket} (hp : p.kind = .login) :
    Course request true timers greeted t.mPlayTestCount
      (packets ++ if written then [p] else []) := by
  generalize t.mPlayTestCount = count at h ⊢
  cases h with
  | silent =>
    cases written with
    | false => exact .silent
    | true => exact .asked hp

/-- A job for `PlayTest` waits only while the player is at play. -/
theorem Course.playTest {n : Nat} {count : Int}
    (h : Course request started (n + 1) greeted count packets) {p : ClientPacket}
    (hp : (request = count + 1 ∧ again = false ∧ p.kind = .exit) ∨
      (request ≠ count + 1 ∧ again = true ∧ (p.kind = .chat ∨ p.kind = .move))) :
    Course request started (n + again.toNat) greeted (count + 1)
      (packets ++ if written then [p] else []) := by
  cases h with
  | @playing login actions count hlogin hactions hle hbefore =>
    rcases hp with ⟨hend, rfl, hkind⟩ | ⟨hgoes, rfl, hkind⟩
    · have hexits : ∀ q ∈ (if written then [p] else []), q.kind = .exit := by
        intro q hq
        cases written with
        | false => simp at hq
        | true => exact List.mem_singleton.mp hq ▸ hkind
      rw [← hend, List.cons_append]
      refine .ended hlogin hactions (by omega) hexits ?_
      cases written <;> simp
    · rw [List.cons_append]
      refine .playing hlogin (fun q hq => ?_) ?_ (by omega)
      · cases written with
        | false => exact hactions q (by simpa using hq)
        | true =>
          rcases List.mem_append.mp hq with hq | hq
          · exact hactions q hq
          · exact List.mem_singleton.mp hq ▸ hkind
      · cases written <;> simp <;> omega

/-- Who is greeted no more often than it has logged in, is greeted once. -/
theorem Course.welcome {count : Int} (h : Course request started timers greeted count packets)
    {greeted' : Nat} (hle : greeted ≤ greeted')
    (hlogins : greeted' ≤ packets.countP fun p => p.kind = .login) :
    Course request started (timers + (greeted' - greeted)) greeted' count packets := by
  have hothers : ∀ {rest : List ClientPacket}, (∀ p ∈ rest, p.kind ≠ .login) →
      (rest.countP fun p => p.kind = .login) = 0 := by
    intro rest hrest
    simpa [List.countP_eq_zero] using hrest
  have hactions : ∀ {p : ClientPacket}, (p.kind = .chat ∨ p.kind = .move) → p.kind ≠ .login := by
    rintro p (h | h) <;> simp [h]
  cases h with
  | silent =>
    obtain rfl : greeted' = 0 := by simpa using hlogins
    exact .silent
  | @asked login hlogin =>
    simp only [List.countP_cons, List.countP_nil, hlogin, decide_true, if_true] at hlogins
    obtain rfl | rfl : greeted' = 0 ∨ greeted' = 1 := by omega
    · exact .asked hlogin
    · exact .playing hlogin (fun p hp => absurd hp List.not_mem_nil) (Int.le_refl 0) fun h => h
  | @playing login actions count hlogin hchat hcount hbefore =>
    have hzero := hothers fun p hp => hactions (hchat p hp)
    simp only [List.countP_cons, hlogin, decide_true, if_true] at hlogins
    obtain rfl : greeted' = 1 := by omega
    exact .playing hlogin hchat hcount hbefore
  | @ended login actions exits hlogin hchat hcount hexit hone =>
    have hzero := hothers fun p hp => hactions (hchat p hp)
    have hzero' : (exits.countP fun p => p.kind = .login) = 0 :=
      hothers fun p hp => by simp [hexit p hp]
    simp only [List.countP_cons, List.countP_append, hlogin, decide_true, if_true] at hlogins
    obtain rfl : greeted' = 1 := by omega
    exact .ended hlogin hchat hcount hexit hone

end DummyClients

end GameLift
