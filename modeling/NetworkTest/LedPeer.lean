import NetworkTest.LedChain
import NetworkTest.Served

/-!
The LED server with a peer that sends anything. The message before stays in
`msg`, so a last receive that is short puts a new beginning on an old end; and a
byte of a message is shifted whole, so that its higher bits are those of the
LEDs behind it.
-/

namespace NetworkTest.LedPeer

open CBuffer (Bytes Memory overwrite)
open Channel (Link)
open LedChain (packedOf lastMessage)
open LedDriver (Register Lit)
open LedServer (Server MAX_BUF packed)
open Machine (Step exec)

/-- What a message says of LED `k`. -/
def selects (message : Bytes) (k : Nat) : Bool :=
  (LedDriver.toInt (packedOf message)).getLsbD (k - 1)

/-- Bit `i` of byte `j` of a message; the bytes are numbered like the LEDs. -/
def byteBit (message : Bytes) (j i : Nat) : Bool :=
  (message.getD (j - 1) 0).toBitVec.getLsbD i

theorem packed_getLsbD (led1 led2 led3 led4 : UInt8) {i : Nat} (low : i < 4) :
    (LedDriver.toInt (packed led1 led2 led3 led4)).getLsbD i =
      (led1.toBitVec.getLsbD i || (decide (1 ≤ i) && led2.toBitVec.getLsbD (i - 1)) ||
        (decide (2 ≤ i) && led3.toBitVec.getLsbD (i - 2)) ||
        (decide (3 ≤ i) && led4.toBitVec.getLsbD (i - 3))) := by
  have four : i = 0 ∨ i = 1 ∨ i = 2 ∨ i = 3 := by omega
  rcases four with rfl | rfl | rfl | rfl
  all_goals
    simp [LedDriver.toInt, packed, UInt8.toBitVec_shiftLeft, Bool.or_comm, Bool.or_assoc]

/-- A byte reaches its own LED with its lowest bit, and the LEDs behind it with
the higher ones. -/
theorem selects_iff (message : Bytes) {k : Nat} (led : 1 ≤ k ∧ k ≤ 4) :
    selects message k = true ↔ ∃ j, 1 ≤ j ∧ j ≤ k ∧ byteBit message j (k - j) = true := by
  rw [selects, packedOf, packed_getLsbD _ _ _ _ (by omega)]
  simp only [Bool.or_eq_true, Bool.and_eq_true, decide_eq_true_eq]
  constructor
  · rintro (((on | ⟨far, on⟩) | ⟨far, on⟩) | ⟨far, on⟩)
    · exact ⟨1, by omega, by omega, on⟩
    · exact ⟨2, by omega, by omega, on⟩
    · exact ⟨3, by omega, by omega, on⟩
    · exact ⟨4, by omega, by omega, on⟩
  · rintro ⟨j, first, last, on⟩
    have four : j = 1 ∨ j = 2 ∨ j = 3 ∨ j = 4 := by omega
    rcases four with rfl | rfl | rfl | rfl
    · exact .inl (.inl (.inl on))
    · exact .inl (.inl (.inr ⟨by omega, on⟩))
    · exact .inl (.inr ⟨by omega, on⟩)
    · exact .inr ⟨by omega, on⟩

/-- The message with the other bytes 0. -/
def alone (message : Bytes) (k : Nat) : Bytes :=
  (List.replicate 4 0).set (k - 1) (message.getD (k - 1) 0)

theorem byteBit_alone (message : Bytes) {j k i : Nat} (first : 1 ≤ j ∧ j ≤ 4)
    (led : 1 ≤ k ∧ k ≤ 4) :
    byteBit (alone message k) j i = if j = k then byteBit message k i else false := by
  rw [byteBit, alone, List.getD_eq_getElem?_getD, List.getElem?_set]
  by_cases same : j = k
  · subst same
    have inside : j - 1 < 4 := by omega
    simp [inside, byteBit]
  · have apart : k - 1 ≠ j - 1 := by omega
    have inside : j - 1 < 4 := by omega
    rw [if_neg apart, List.getElem?_replicate, if_pos inside, if_neg same]
    simp

theorem selects_alone (message : Bytes) {k : Nat} (led : 1 ≤ k ∧ k ≤ 4) :
    selects (alone message k) k = byteBit message k 0 := by
  rw [Bool.eq_iff_iff, selects_iff _ led]
  constructor
  · rintro ⟨j, first, last, on⟩
    rw [byteBit_alone message ⟨first, by omega⟩ led] at on
    split at on
    case isTrue same =>
        rwa [same, Nat.sub_self] at on
    case isFalse => contradiction
  · intro on
    refine ⟨k, led.1, Nat.le_refl k, ?_⟩
    rw [byteBit_alone message led led, if_pos rfl, Nat.sub_self, on]

/-- Where a byte lights an LED behind its own, that one's own byte lights it too. -/
def OwnBits (message : Bytes) : Prop :=
  ∀ k ≤ 4, ∀ j < k, 1 ≤ j → byteBit message j (k - j) = true → byteBit message k 0 = true

instance (message : Bytes) : Decidable (OwnBits message) :=
  inferInstanceAs (Decidable (∀ k ≤ 4, ∀ j < k, _))

theorem alone_iff (message : Bytes) :
    (∀ k, 1 ≤ k ∧ k ≤ 4 → selects message k = selects (alone message k) k) ↔
      OwnBits message := by
  constructor
  · intro own k last j less first on
    have led : 1 ≤ k ∧ k ≤ 4 := ⟨by omega, last⟩
    rw [← selects_alone message led, ← own k led, selects_iff _ led]
    exact ⟨j, first, Nat.le_of_lt less, on⟩
  · intro own k led
    rw [selects_alone message led, Bool.eq_iff_iff, selects_iff _ led]
    constructor
    · rintro ⟨j, first, last, on⟩
      rcases Nat.lt_or_eq_of_le last with less | same
      · exact own k led.2 j less first on
      · rwa [same, Nat.sub_self] at on
    · exact fun on => ⟨k, led.1, Nat.le_refl k, by rwa [Nat.sub_self]⟩

/-! The messages of a stream. -/

/-- The bytes of the whole messages, and those left over. -/
def whole (stream : Bytes) : Bytes := stream.take (4 * (stream.length / 4))

def left (stream : Bytes) : Bytes := stream.drop (4 * (stream.length / 4))

def lastWhole (stream : Bytes) : Option Bytes :=
  if stream.length < 4 then none else some (lastMessage (whole stream))

/-- What is in `msg` after the stream: the bytes left over, put over the message
before them. -/
def mixed (msg : Memory 4) (stream : Bytes) : Bytes :=
  overwrite ((lastWhole stream).getD msg.val) (left stream)

theorem left_eq_nil {stream : Bytes} (fours : stream.length % 4 = 0) : left stream = [] := by
  rw [left, List.drop_eq_nil_iff]
  omega

theorem left_ne_nil {stream : Bytes} (rest : stream.length % 4 ≠ 0) : left stream ≠ [] := by
  rw [left, ne_eq, List.drop_eq_nil_iff]
  omega

theorem lastWhole_append {stream message : Bytes} (fours : stream.length % 4 = 0)
    (four : message.length = 4) :
    lastWhole (stream ++ message) = some message ∧ left (stream ++ message) = [] := by
  have length : (stream ++ message).length = stream.length + 4 := by
    rw [List.length_append, four]
  have all : 4 * ((stream.length + 4) / 4) = (stream ++ message).length := by omega
  refine ⟨?_, left_eq_nil (by omega)⟩
  rw [lastWhole, if_neg (by omega), whole, length, all, List.take_length,
    LedChain.lastMessage_append four]

theorem lastWhole_append_short {stream data : Bytes} (fours : stream.length % 4 = 0)
    (short : data.length < 4) :
    lastWhole (stream ++ data) = lastWhole stream ∧ left (stream ++ data) = data := by
  have length : (stream ++ data).length = stream.length + data.length := List.length_append
  have same : 4 * ((stream.length + data.length) / 4) = stream.length := by omega
  constructor
  · have few : stream.length + data.length < 4 ↔ stream.length < 4 := by omega
    rw [lastWhole, lastWhole, whole, whole, length, same, List.take_left]
    simp only [show 4 * (stream.length / 4) = stream.length by omega, List.take_length]
    exact if_congr few rfl rfl
  · rw [left, length, same, List.drop_left]

theorem mixed_of_fours (msg : Memory 4) {stream : Bytes} (fours : stream.length % 4 = 0) :
    mixed msg stream = (lastWhole stream).getD msg.val := by
  rw [mixed, left_eq_nil fours, overwrite, List.nil_append, List.length_nil, List.drop_zero]

/-! The server on one connection. -/

def takes (link : Link UInt8) : LedServer.Event → Option (Link UInt8)
  | .accept => none
  | .acceptFails => none
  | event => LedServer.takes link event

abbrev Session := Served.Session Server UInt8

abbrev Input := Served.Input LedServer.Event UInt8

def session : Step Session Input LedServer.Call := Served.serve LedServer.step takes

theorem takes_sent (link : Link UInt8) (event : LedServer.Event) (rest : Link UInt8)
    (got : takes link event = some rest) : rest.sent = link.sent := by
  cases event with
  | accept => cases got
  | acceptFails => cases got
  | recv result => exact (@Link.recvAll_sent _ _ _ _ 4 result got).1
  | write allocated =>
      cases got
      rfl

/-- Behind `accept`; `msg` and `buf_out` hold what earlier connections have left. -/
def start (gpfdat : Register) (msg : Memory 4) (bufOut : Memory MAX_BUF) : Session where
  server := { pc := .receiving, msg := msg, bufOut := bufOut, gpfdat := gpfdat }
  link := .fresh

/-- What `msg` holds is packed and shown, also where it is no whole message. -/
structure Inv (gpfdat : Register) (msg : Memory 4) (now : Session) : Prop where
  held : now.server.msg.val = mixed msg now.link.taken
  packed : now.server.pc = .writing → now.link.taken ≠ [] ∧
    now.server.bufOut.val.getD 0 0 = packedOf now.server.msg.val
  shown : now.server.pc = .receiving ∨ now.server.pc = .accepting → now.link.taken ≠ [] →
    LedChain.Shows now.server.gpfdat (mixed msg now.link.taken)
  untouched : now.link.taken = [] → now.server.gpfdat = gpfdat
  rest : now.link.taken.length % 4 ≠ 0 → now.link.arriving = [] ∧
    (now.link.closed = true ∨ now.link.broken = true)
  ended : now.server.pc = .accepting → now.link.broken = false →
    now.link.closed = true ∧ now.link.arriving = []

theorem inv_start (gpfdat : Register) (msg : Memory 4) (bufOut : Memory MAX_BUF) :
    Inv gpfdat msg (start gpfdat msg bufOut) := by
  constructor
  case held => exact (mixed_of_fours msg (show ([] : Bytes).length % 4 = 0 from rfl)).symm
  all_goals simp [start, Link.fresh]

theorem mixed_received {msg held : Memory 4} {taken data : Bytes} (fours : taken.length % 4 = 0)
    (before : held.val = mixed msg taken) (fits : data.length ≤ 4) :
    (held.store data fits).val = mixed msg (taken ++ data) := by
  rcases Nat.lt_or_eq_of_le fits with short | four
  · obtain ⟨last, rest⟩ := lastWhole_append_short fours short
    rw [mixed_of_fours msg fours] at before
    rw [mixed, last, rest, ← before]
    rfl
  · obtain ⟨last, rest⟩ := lastWhole_append fours four
    rw [mixed, last, rest, CBuffer.store_whole held ⟨data, four⟩]
    simp [overwrite]

theorem inv_received {gpfdat : Register} {msg : Memory 4} {now : Session}
    (inv : Inv gpfdat msg now) {data : Bytes} {link : Link UInt8} (more : data ≠ [])
    (fits : data.length ≤ 4) (got : now.link.recvAll 4 (some data) = some link) :
    Inv gpfdat msg
      { server := { now.server with
          msg := now.server.msg.store data fits
          bufOut := LedServer.led_ctrl now.server.bufOut (now.server.msg.store data fits)
          pc := .writing }
        link := link } := by
  obtain ⟨_, piece, _⟩ := Link.recvAll_data got
  have taken := Link.recvAll_taken got
  -- something has arrived, so only whole messages have been taken before
  have fours : now.link.taken.length % 4 = 0 := by
    by_contra partly
    rw [(inv.rest partly).1, List.take_nil] at piece
    exact more piece
  have some : link.taken ≠ [] := by simp [taken, more]
  constructor
  case held => exact taken ▸ mixed_received fours inv.held fits
  case packed =>
      refine fun _ => ⟨some, ?_⟩
      have two := now.server.bufOut.property
      simp only [LedServer.led_ctrl, Memory.set]
      rw [List.getD_eq_getElem?_getD, List.getElem?_set_self (by rw [two]; decide)]
      rfl
  case shown => simp
  case untouched => exact fun none => absurd none some
  -- `MSG_WAITALL` gives less only at the end
  case rest =>
      intro partly
      have short : data.length < 4 := by
        rw [taken, List.length_append] at partly
        omega
      obtain ⟨empty, done⟩ := Link.recvAll_short got short
      obtain ⟨_, closed, broken⟩ := Link.recvAll_sent got
      exact ⟨empty, by rwa [closed, broken]⟩
  case ended => simp

theorem recv_ended {link next : Link UInt8} {result : Option Bytes}
    (last : result = none ∨ result = some []) (got : link.recvAll 4 result = some next) :
    next.taken = link.taken ∧ (link.arriving = [] → next.arriving = []) ∧
      (next.broken = false → next.closed = true ∧ next.arriving = []) := by
  rcases last with rfl | rfl
  · obtain ⟨rfl, broken⟩ := Link.recvAll_error got
    exact ⟨rfl, id, by simp [broken]⟩
  · have taken := Link.recvAll_taken got
    rw [List.append_nil] at taken
    obtain ⟨empty, done⟩ := Link.recvAll_short got (by decide)
    obtain ⟨_, closed, broken⟩ := Link.recvAll_sent got
    refine ⟨taken, fun _ => empty, fun held => ⟨?_, empty⟩⟩
    rw [broken] at held
    rw [closed]
    exact done.resolve_right (by simp [held])

theorem inv_turn {gpfdat : Register} {msg : Memory 4} {now next : Session} {input : Input}
    {made : List LedServer.Call} (inv : Inv gpfdat msg now)
    (turn : Served.Turn LedServer.step takes now input next made) : Inv gpfdat msg next := by
  cases turn with
  | segment data going held =>
      have same := Link.send_taken now.link data
      constructor
      case held => exact same ▸ inv.held
      case packed => exact same ▸ inv.packed
      case shown => exact same ▸ inv.shown
      case untouched => exact same ▸ inv.untouched
      case rest =>
          intro partly
          rw [same] at partly
          have done := (inv.rest partly).2
          simp [going, held] at done
      case ended =>
          intro here _
          have closed := (inv.ended here held).1
          simp [going] at closed
  | close =>
      exact { inv with
        rest := fun partly => ⟨(inv.rest partly).1, .inl rfl⟩
        ended := fun here held => ⟨rfl, (inv.ended here held).2⟩ }
  | cut kept =>
      exact { inv with
        rest := fun partly => ⟨by simp [Link.cut, (inv.rest partly).1], .inr rfl⟩
        ended := by simp [Link.cut] }
  | call event server link _ got stepped =>
      cases LedServer.turn_of_step stepped with
      | accepted idle => cases got
      | acceptFailed idle => cases got
      | ended result here last =>
          have recv : now.link.recvAll 4 result = some link := got
          obtain ⟨same, empty, finished⟩ := recv_ended last recv
          obtain ⟨_, closed, broken⟩ := Link.recvAll_sent recv
          constructor
          case held => exact same ▸ inv.held
          case packed => simp
          case shown => exact fun _ => same ▸ inv.shown (.inl here)
          case untouched => exact same ▸ inv.untouched
          case rest =>
              intro partly
              rw [same] at partly
              obtain ⟨nothing, done⟩ := inv.rest partly
              exact ⟨empty nothing, by rwa [closed, broken]⟩
          case ended => exact fun _ => finished
      | received data here more fits => exact inv_received inv more fits got
      | displayed here =>
          cases got
          obtain ⟨some, packed⟩ := inv.packed here
          refine { inv with packed := by simp, shown := ?_, untouched := ?_, ended := by simp }
          · intro _ _ k led
            rw [LedDriver.lit_display_iff _ _ led, packed, inv.held]
          · exact fun none => absurd none some
      | faulted here =>
          cases got
          exact { inv with packed := by simp, shown := by simp, ended := by simp }

/-! The end of the connection. -/

/-- What LED `k` has to be: as the last whole message says, or as it was. -/
def Due (gpfdat : Register) : Option Bytes → Nat → Prop
  | some message, k => selects message k = true
  | none, k => Lit gpfdat k

/-- The LEDs are as they have to be, and LED `k` is so by byte `k` of the message
alone. -/
structure Right (before : Register) (stream : Bytes) (gpfdat : Register) : Prop where
  set : ∀ k, 1 ≤ k ∧ k ≤ 4 → (Lit gpfdat k ↔ Due before (lastWhole stream) k)
  own : ∀ message ∈ lastWhole stream, ∀ k, 1 ≤ k ∧ k ≤ 4 →
    selects message k = selects (alone message k) k

/-- The bytes left over, put over the message before them, say the same. -/
def LeftSame (before : Register) (msg : Memory 4) (stream : Bytes) : Prop :=
  left stream ≠ [] → ∀ k, 1 ≤ k ∧ k ≤ 4 →
    (selects (mixed msg stream) k = true ↔ Due before (lastWhole stream) k)

theorem lastWhole_none {stream : Bytes} (fours : stream.length % 4 = 0)
    (none : lastWhole stream = none) : stream = [] := by
  rw [lastWhole] at none
  split at none
  · exact List.eq_nil_of_length_eq_zero (by omega)
  · cases none

theorem set_iff {before : Register} {msg : Memory 4} {now : Session} (inv : Inv before msg now)
    (ended : now.server.pc = .accepting) :
    (∀ k, 1 ≤ k ∧ k ≤ 4 → (Lit now.server.gpfdat k ↔ Due before (lastWhole now.link.taken) k)) ↔
      LeftSame before msg now.link.taken := by
  by_cases nothing : now.link.taken = []
  · have untouched := inv.untouched nothing
    refine iff_of_true (fun k _ => ?_) (fun rest => ?_)
    · rw [nothing, untouched]
      rfl
    · rw [nothing] at rest
      exact absurd rfl rest
  have shown := inv.shown (.inr ended) nothing
  by_cases fours : now.link.taken.length % 4 = 0
  · refine iff_of_true (fun k led => (shown k led).trans ?_)
      (fun rest => absurd (left_eq_nil fours) rest)
    cases last : lastWhole now.link.taken with
    | none => exact absurd (lastWhole_none fours last) nothing
    | some message =>
        rw [mixed_of_fours msg fours, last, Option.getD_some]
        rfl
  -- the mixture is what has been shown last
  · have rest := left_ne_nil fours
    constructor
    · exact fun set _ k led => (shown k led).symm.trans (set k led)
    · exact fun same k led => (shown k led).trans (same rest k led)

/-- Whatever the peer sends, the LEDs end as the last whole message says, each by
its own byte, exactly when no bytes left over say otherwise and no byte of that
message lights another LED than its own. -/
theorem leds_right_iff (gpfdat : Register) (msg : Memory 4) (bufOut : Memory MAX_BUF)
    (inputs : List Input) (now : Session) (calls : List LedServer.Call)
    (ran : exec session (start gpfdat msg bufOut) inputs = some (now, calls))
    (ended : now.server.pc = .accepting) :
    (now.link.broken = false → now.link.taken = inputs.flatMap Served.Input.data) ∧
      (Right gpfdat now.link.taken now.server.gpfdat ↔
        LeftSame gpfdat msg now.link.taken ∧
          ∀ message ∈ lastWhole now.link.taken, OwnBits message) := by
  have inv := Machine.exec_invariant (fun _ => Inv gpfdat msg)
    (fun _ _ _ _ _ inv taken => inv_turn inv (Served.turn_of_step taken))
    (inv_start gpfdat msg bufOut) ran
  have sent : now.link.sent = inputs.flatMap Served.Input.data := Served.stream_run takes_sent ran
  constructor
  · intro held
    have all := now.link.whole held
    rwa [(inv.ended ended held).2, List.append_nil, sent] at all
  · rw [← set_iff inv ended]
    constructor
    · exact fun right => ⟨right.set, fun message last =>
        (alone_iff message).mp (right.own message last)⟩
    · exact fun ⟨set, own⟩ => ⟨set, fun message last => (alone_iff message).mpr (own message last)⟩

def twoLeds : List Input :=
  [.segment [1, 0], .segment [1, 0], .call (.recv (some [1, 0, 1, 0])), .call (.write true),
    .close, .call (.recv (some []))]

theorem leds_right_twoLeds :
    ∃ now calls, exec session (start 0xf0 (.zeros 4) (.zeros 2)) twoLeds = some (now, calls) ∧
      Right 0xf0 now.link.taken now.server.gpfdat := by
  have holds := leds_right_iff 0xf0 (.zeros 4) (.zeros 2) twoLeds _ _ rfl rfl
  refine ⟨_, _, rfl, holds.2.mpr ⟨?_, ?_⟩⟩
  · exact fun rest => absurd rfl rest
  · decide

/-- All LEDs on, and then one byte more: the last receive turns the first one off. -/
def oneByteMore : List Input :=
  [.segment [1, 1, 1, 1, 0], .call (.recv (some [1, 1, 1, 1])), .call (.write true), .close,
    .call (.recv (some [0])), .call (.write true), .call (.recv (some []))]

theorem led_by_byte_more :
    ¬ ∀ (gpfdat : Register) (msg : Memory 4) (bufOut : Memory MAX_BUF) (inputs : List Input)
      (now : Session) (calls : List LedServer.Call),
      exec session (start gpfdat msg bufOut) inputs = some (now, calls) →
        now.server.pc = .accepting → Right gpfdat now.link.taken now.server.gpfdat := by
  intro all
  have right := all 0xf0 (.zeros 4) (.zeros 2) oneByteMore _ _ rfl rfl
  have first := (right.set 1 (by decide)).mpr rfl
  revert first
  decide

end NetworkTest.LedPeer
