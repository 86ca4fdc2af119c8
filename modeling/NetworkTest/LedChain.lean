import Mathlib.Data.List.Induction
import NetworkTest.LedServer
import NetworkTest.Lookup

/-!
The LED chain of fri/ledok: any number of menu clients, each on a connection
of its own, and the server that takes the connections one after the other. A
client keeps its four toggles and sends them all after each choice.
-/

namespace NetworkTest.LedChain

open CBuffer (Bytes Memory)
open Channel (Link)
open LedDriver (Register Lit SameOutside)
open LedServer (Server packed MAX_BUF)
open Machine (Step exec)

/-- `struct _msg`. -/
structure Msg where
  b1 : UInt8
  b2 : UInt8
  b3 : UInt8
  b4 : UInt8
  deriving DecidableEq

namespace Msg

def zero : Msg := ⟨0, 0, 0, 0⟩

def bytes (msg : Msg) : Bytes := [msg.b1, msg.b2, msg.b3, msg.b4]

/-- `!` of a byte. -/
def not (byte : UInt8) : UInt8 := if byte = 0 then 1 else 0

/-- The choices 1 to 4 of the menu. -/
def toggle (msg : Msg) (which : Nat) : Msg :=
  match which with
  | 1 => { msg with b1 := not msg.b1 }
  | 2 => { msg with b2 := not msg.b2 }
  | 3 => { msg with b3 := not msg.b3 }
  | 4 => { msg with b4 := not msg.b4 }
  | _ => msg

end Msg

/-- Where a client is; `failed` is after a `send` that returned -1. -/
inductive Pc where
  | menu
  | sending
  | finished
  | failed
  deriving DecidableEq

/-- A client and its connection; `choices` are the LEDs chosen so far. -/
structure Session where
  pc : Pc
  msg : Msg
  choices : List Nat
  link : Link UInt8

/-- `served` connections have been accepted; the last of them is the current
one. -/
structure System where
  sessions : List Session
  served : Nat
  server : Server

/-- `scanf` reads a number or nothing. -/
inductive Event where
  | connect
  | scanf (client : Nat) (result : Option Int)
  | send (client : Nat) (ok : Bool)
  | server (event : LedServer.Event)
  | cut (client : Nat) (kept : Nat)
  deriving DecidableEq

abbrev Call := LedServer.Call

def connected : Session where
  pc := .menu
  msg := .zero
  choices := []
  link := .fresh

/-- One pass of the menu, up to the `send`. -/
def choose (session : Session) (result : Option Int) : Session :=
  let which := result.getD 5
  if 1 ≤ which ∧ which ≤ 4 then
    { session with
      msg := session.msg.toggle which.toNat
      choices := session.choices ++ [which.toNat]
      pc := .sending }
  else if which = 5 then { session with link := session.link.close, pc := .finished }
  else session

def sent (session : Session) (ok : Bool) : Session :=
  if ok then { session with link := session.link.send session.msg.bytes, pc := .menu }
  else { session with link := session.link.close, pc := .failed }

def System.current (system : System) : Option Session :=
  match system.served with
  | 0 => none
  | last + 1 => system.sessions[last]?

def System.update (system : System) (client : Nat) (session : Session) : System :=
  { system with sessions := system.sessions.set client session }

def step : Step System Event Call := fun system event =>
  match event with
  | .connect => some ({ system with sessions := system.sessions ++ [connected] }, [])
  | .scanf client result =>
      match system.sessions[client]? with
      | none => none
      | some session =>
          if session.pc = .menu then some (system.update client (choose session result), [])
          else none
  | .send client ok =>
      match system.sessions[client]? with
      | none => none
      | some session =>
          if session.pc = .sending then some (system.update client (sent session ok), [])
          else none
  | .server .accept =>
      if system.served < system.sessions.length then
        match LedServer.step system.server .accept with
        | none => none
        | some (server, made) =>
            some ({ system with server := server, served := system.served + 1 }, made)
      else none
  | .server event =>
      match system.served with
      | 0 => none
      | last + 1 =>
          match system.sessions[last]? with
          | none => none
          | some session =>
              match LedServer.step system.server event, LedServer.takes session.link event with
              | some (server, made), some link =>
                  some ({ system.update last { session with link := link } with
                    server := server }, made)
              | _, _ => none
  | .cut client kept =>
      match system.sessions[client]? with
      | none => none
      | some session =>
          some (system.update client { session with link := session.link.cut kept }, [])

/-- The server before the first client; its locals and the register hold
anything. -/
def start (gpfdat : Register) (msg : Memory 4) (bufOut : Memory MAX_BUF) : System where
  sessions := []
  served := 0
  server := { pc := .accepting, msg := msg, bufOut := bufOut, gpfdat := gpfdat }

inductive Turn (system : System) : Event → System → List Call → Prop where
  | connects : Turn system .connect { system with sessions := system.sessions ++ [connected] } []
  | chose (client : Nat) (session : Session) (result : Option Int)
      (found : system.sessions[client]? = some session) (here : session.pc = .menu) :
      Turn system (.scanf client result) (system.update client (choose session result)) []
  | sends (client : Nat) (session : Session) (ok : Bool)
      (found : system.sessions[client]? = some session) (here : session.pc = .sending) :
      Turn system (.send client ok) (system.update client (sent session ok)) []
  | accepts (waiting : system.served < system.sessions.length)
      (idle : system.server.pc = .accepting) :
      Turn system (.server .accept)
        { system with
          server := { system.server with pc := .receiving }
          served := system.served + 1 } [.connected]
  | serves (last : Nat) (session : Session) (event : LedServer.Event) (server : Server)
      (link : Link UInt8) (made : List Call) (place : system.served = last + 1)
      (found : system.sessions[last]? = some session)
      (turn : LedServer.Turn system.server event server made) (other : event ≠ .accept)
      (took : LedServer.takes session.link event = some link) :
      Turn system (.server event)
        { system.update last { session with link := link } with server := server } made
  | cuts (client kept : Nat) (session : Session)
      (found : system.sessions[client]? = some session) :
      Turn system (.cut client kept)
        (system.update client { session with link := session.link.cut kept }) []

theorem turn_of_step {system next : System} {event : Event} {made : List Call}
    (taken : step system event = some (next, made)) : Turn system event next made := by
  unfold step at taken
  split at taken
  case h_1 =>
      cases taken
      exact .connects
  case h_2 client result =>
      cases found : system.sessions[client]? with
      | none => simp [found] at taken
      | some session =>
          simp only [found, Option.ite_none_right_eq_some, Option.some.injEq,
            Prod.mk.injEq] at taken
          obtain ⟨here, rfl, rfl⟩ := taken
          exact .chose client session result found here
  case h_3 client ok =>
      cases found : system.sessions[client]? with
      | none => simp [found] at taken
      | some session =>
          simp only [found, Option.ite_none_right_eq_some, Option.some.injEq,
            Prod.mk.injEq] at taken
          obtain ⟨here, rfl, rfl⟩ := taken
          exact .sends client session ok found here
  case h_4 =>
      simp only [Option.ite_none_right_eq_some] at taken
      obtain ⟨waiting, taken⟩ := taken
      cases stepped : LedServer.step system.server .accept with
      | none => simp [stepped] at taken
      | some pair =>
          obtain ⟨server, calls⟩ := pair
          simp only [stepped, Option.some.injEq, Prod.mk.injEq] at taken
          obtain ⟨rfl, rfl⟩ := taken
          cases LedServer.turn_of_step stepped with
          | accepted idle => exact .accepts waiting idle
  case h_5 event other =>
      cases place : system.served with
      | zero => simp [place] at taken
      | succ last =>
          cases found : system.sessions[last]? with
          | none => simp [place, found] at taken
          | some session =>
              simp only [place, found] at taken
              split at taken
              case h_1 server calls link stepped took =>
                  simp only [Option.some.injEq, Prod.mk.injEq] at taken
                  obtain ⟨rfl, rfl⟩ := taken
                  exact .serves last session event server link calls place found
                    (LedServer.turn_of_step stepped) other took
              case h_2 => contradiction
  case h_6 client kept =>
      cases found : system.sessions[client]? with
      | none => simp [found] at taken
      | some session =>
          simp only [found, Option.some.injEq, Prod.mk.injEq] at taken
          obtain ⟨rfl, rfl⟩ := taken
          exact .cuts client kept session found

/-! The client's side: what it has sent ends with its toggles. -/

def after (choices : List Nat) : Msg := choices.foldl Msg.toggle .zero

def bit (value : Bool) : UInt8 := if value then 1 else 0

def odd (choices : List Nat) (k : Nat) : Bool := decide (choices.count k % 2 = 1)

theorem odd_append (choices : List Nat) (which k : Nat) :
    odd (choices ++ [which]) k = if which = k then !odd choices k else odd choices k := by
  rw [odd, odd, List.count_append, List.count_singleton]
  by_cases same : which = k
  · subst same
    rcases Nat.mod_two_eq_zero_or_one (choices.count which) with even | uneven
    · simp [even, Nat.add_mod]
    · simp [uneven, Nat.add_mod]
  · simp [same]

theorem toggle_bits (on : Nat → Bool) (which : Nat) :
    Msg.toggle ⟨bit (on 1), bit (on 2), bit (on 3), bit (on 4)⟩ which =
      ⟨bit (if which = 1 then !on 1 else on 1), bit (if which = 2 then !on 2 else on 2),
        bit (if which = 3 then !on 3 else on 3), bit (if which = 4 then !on 4 else on 4)⟩ := by
  have flip : ∀ value, Msg.not (bit value) = bit !value := by decide
  match which with
  | 0 => rfl
  | 1 => simp only [Msg.toggle, flip]; rfl
  | 2 => simp only [Msg.toggle, flip]; rfl
  | 3 => simp only [Msg.toggle, flip]; rfl
  | 4 => simp only [Msg.toggle, flip]; rfl
  | which + 5 => simp [Msg.toggle]

theorem after_eq (choices : List Nat) :
    after choices = ⟨bit (odd choices 1), bit (odd choices 2), bit (odd choices 3),
      bit (odd choices 4)⟩ := by
  induction choices using List.reverseRecOn with
  | nil => rfl
  | append_singleton choices which ih =>
      rw [after, List.foldl_append, ← after, ih, List.foldl_cons, List.foldl_nil,
        toggle_bits (odd choices)]
      simp only [odd_append]

/-- The packed byte that the server makes of a message. -/
def packedOf (data : Bytes) : UInt8 :=
  packed (data.getD 0 0) (data.getD 1 0) (data.getD 2 0) (data.getD 3 0)

theorem packed_bit (choices : List Nat) {k : Nat} (led : 1 ≤ k ∧ k ≤ 4) :
    (LedDriver.toInt (packedOf (after choices).bytes)).getLsbD (k - 1) = odd choices k := by
  have four : k = 1 ∨ k = 2 ∨ k = 3 ∨ k = 4 := by omega
  rw [after_eq]
  generalize odd choices = on
  simp only [packedOf, Msg.bytes, List.getD_cons_zero, List.getD_cons_succ]
  rcases four with rfl | rfl | rfl | rfl
  all_goals
    generalize on 1 = first, on 2 = second, on 3 = third, on 4 = fourth
    revert first second third fourth
    decide

def lastMessage (data : Bytes) : Bytes := data.drop (data.length - 4)

theorem lastMessage_append {data message : Bytes} (four : message.length = 4) :
    lastMessage (data ++ message) = message := by
  rw [lastMessage, List.length_append, four, Nat.add_sub_cancel, List.drop_left]

/-- Four bytes for each choice, the last of them the toggles after all. -/
structure Carries (data : Bytes) (choices : List Nat) : Prop where
  length : data.length = 4 * choices.length
  last : choices ≠ [] → lastMessage data = (after choices).bytes

theorem carries_append {data : Bytes} {choices : List Nat} (carries : Carries data choices)
    (which : Nat) : Carries (data ++ (after (choices ++ [which])).bytes) (choices ++ [which]) := by
  have four : (after (choices ++ [which])).bytes.length = 4 := rfl
  constructor
  · rw [List.length_append, List.length_append, four, carries.length, List.length_singleton]
    omega
  · intro _
    exact lastMessage_append four

structure SessionInv (session : Session) : Prop where
  msg : session.msg = after session.choices
  carried : ∃ earlier, (session.link.broken = false → Carries session.link.sent earlier) ∧
    (session.pc = .menu ∨ session.pc = .finished → earlier = session.choices) ∧
    (session.pc = .sending → ∃ which, session.choices = earlier ++ [which])

theorem session_connected : SessionInv connected :=
  ⟨rfl, [], fun _ => ⟨rfl, fun some => absurd rfl some⟩, fun _ => rfl, nofun⟩

theorem session_choose {session : Session} (inv : SessionInv session) (result : Option Int)
    (here : session.pc = .menu) : SessionInv (choose session result) := by
  obtain ⟨msg, earlier, carries, same, _⟩ := inv
  obtain rfl := same (.inl here)
  rw [choose]
  split
  · refine ⟨?_, session.choices, carries, fun idle => by simp at idle, fun _ => ⟨_, rfl⟩⟩
    rw [msg, after, after, List.foldl_append]
    rfl
  split
  · exact ⟨msg, session.choices, carries, fun _ => rfl, nofun⟩
  · exact ⟨msg, session.choices, carries, fun _ => rfl,
      fun sending => by rw [here] at sending; cases sending⟩

theorem session_sent {session : Session} (inv : SessionInv session) (ok : Bool)
    (here : session.pc = .sending) : SessionInv (sent session ok) := by
  obtain ⟨msg, earlier, carries, _, pending⟩ := inv
  obtain ⟨which, choices⟩ := pending here
  rw [sent]
  split
  · refine ⟨msg, session.choices, fun held => ?_, fun _ => rfl, nofun⟩
    rw [Link.send_broken] at held
    simp only [Link.send_sent held, msg, choices]
    exact carries_append (carries held) which
  · exact ⟨msg, earlier, carries, fun idle => by simp at idle, nofun⟩

/-! The server's side: the LEDs show the last message it has taken. -/

def Shows (gpfdat : Register) (message : Bytes) : Prop :=
  ∀ k, 1 ≤ k ∧ k ≤ 4 →
    (Lit gpfdat k ↔ (LedDriver.toInt (packedOf message)).getLsbD (k - 1) = true)

structure ServedInv (server : Server) (link : Link UInt8) : Prop where
  whole : link.taken.length % 4 = 0
  packed : link.taken ≠ [] → server.bufOut.val.getD 0 0 = packedOf (lastMessage link.taken)
  shown : link.taken ≠ [] → server.pc ≠ .writing → server.pc ≠ .faulted →
    Shows server.gpfdat (lastMessage link.taken)

theorem served_received {server : Server} {session : Session} {link : Link UInt8} {data : Bytes}
    (client : SessionInv session) (inv : ServedInv server session.link)
    (held : session.link.broken = false) (more : data ≠ []) (fits : data.length ≤ 4)
    (got : session.link.recvAll 4 (some data) = some link) :
    ServedInv { server with
      msg := server.msg.store data fits
      bufOut := LedServer.led_ctrl server.bufOut (server.msg.store data fits)
      pc := .writing } link := by
  obtain ⟨_, earlier, carries, _⟩ := client
  have taken := Link.recvAll_taken got
  obtain ⟨rfl, piece, ready⟩ := Link.recvAll_data got
  have sum := congrArg List.length (session.link.whole held)
  rw [List.length_append, (carries held).length] at sum
  have whole := inv.whole
  have some : 0 < session.link.arriving.length := by
    rw [List.length_pos_iff]
    rintro empty
    rw [empty, List.take_nil] at piece
    exact more piece
  -- what is sent comes in fours, so what is left of it does too
  have four : data.length = 4 := by
    rw [piece, List.length_take]
    omega
  have stored : (server.msg.store data fits).val = data := by
    have full := CBuffer.store_whole server.msg ⟨data, four⟩
    exact congrArg Subtype.val full
  constructor
  · rw [taken, List.length_append, four]
    omega
  · intro _
    rw [taken, lastMessage_append four, LedServer.led_ctrl, stored]
    have two := server.bufOut.property
    simp only [Memory.set]
    rw [List.getD_eq_getElem?_getD, List.getElem?_set_self (by rw [two]; decide)]
    rfl
  · intro _ writing
    exact absurd rfl writing

theorem served_turn {server next : Server} {session : Session} {link : Link UInt8}
    {event : LedServer.Event} {made : List Call} (client : SessionInv session)
    (inv : session.link.broken = false → ServedInv server session.link)
    (turn : LedServer.Turn server event next made) (other : event ≠ .accept)
    (took : LedServer.takes session.link event = some link) (held : link.broken = false) :
    ServedInv next link := by
  have holds := (LedServer.takes_keeps took).2.2.symm.trans held
  have served := inv holds
  cases turn with
  | accepted idle => exact absurd rfl other
  | acceptFailed idle =>
      cases took
      exact ⟨served.whole, served.packed,
        fun some _ _ => served.shown some (by simp [idle]) (by simp [idle])⟩
  | ended result here last =>
      rcases last with rfl | rfl
      · have got : session.link.recvAll 4 none = some link := took
        exact absurd got (Link.recvAll_held holds)
      · have got : session.link.recvAll 4 (some []) = some link := took
        have taken := Link.recvAll_taken got
        rw [List.append_nil] at taken
        constructor
        · rw [taken]
          exact served.whole
        · rw [taken]
          exact served.packed
        · rw [taken]
          exact fun some _ _ => served.shown some (by simp [here]) (by simp [here])
  | received data here more fits => exact served_received client served holds more fits took
  | displayed here =>
      cases took
      refine ⟨served.whole, served.packed, fun some _ _ => ?_⟩
      intro k led
      rw [LedDriver.lit_display_iff _ _ led, served.packed some]
  | faulted here =>
      cases took
      exact ⟨served.whole, served.packed, fun _ _ faulted => absurd rfl faulted⟩

structure ChainInv (gpfdat : Register) (system : System) : Prop where
  each : ∀ (client : Nat) (session : Session), system.sessions[client]? = some session →
    SessionInv session
  fresh : ∀ (client : Nat) (session : Session), system.served ≤ client →
    system.sessions[client]? = some session → session.link.taken = []
  served : ∀ session : Session, system.current = some session → session.link.broken = false →
    ServedInv system.server session.link
  same : SameOutside gpfdat system.server.gpfdat

theorem chain_update {gpfdat : Register} {system : System} {client : Nat}
    {session next : Session} (inv : ChainInv gpfdat system)
    (found : system.sessions[client]? = some session) (kept : SessionInv next)
    (taken : next.link.taken = session.link.taken)
    (broken : next.link.broken = false → session.link.broken = false) :
    ChainInv gpfdat (system.update client next) := by
  constructor
  case same => exact inv.same
  case each =>
      intro other one at_other
      rcases Lookup.found_set at_other with ⟨_, rfl⟩ | ⟨_, old⟩
      · exact kept
      · exact inv.each other one old
  case fresh =>
      intro other one late at_other
      rcases Lookup.found_set at_other with ⟨rfl, rfl⟩ | ⟨_, old⟩
      · exact taken.trans (inv.fresh other session late found)
      · exact inv.fresh other one late old
  case served =>
      intro one current held
      cases place : system.served with
      | zero => simp [System.current, System.update, place] at current
      | succ last =>
          simp only [System.current, System.update, place] at current
          rcases Lookup.found_set current with ⟨rfl, rfl⟩ | ⟨_, old⟩
          · have served := inv.served session (by simp only [System.current, place, found])
              (broken held)
            exact ⟨taken ▸ served.whole, taken ▸ served.packed, taken ▸ served.shown⟩
          · exact inv.served one (by simp only [System.current, place, old]) held

theorem chain_turn {gpfdat : Register} {system next : System} {event : Event} {made : List Call}
    (inv : ChainInv gpfdat system) (turn : Turn system event next made) :
    ChainInv gpfdat next := by
  cases turn with
  | connects =>
      constructor
      case same => exact inv.same
      case each =>
          intro client session found
          rcases Lookup.found_append found with old | ⟨_, rfl⟩
          · exact inv.each client session old
          · exact session_connected
      case fresh =>
          intro client session late found
          rcases Lookup.found_append found with old | ⟨_, rfl⟩
          · exact inv.fresh client session late old
          · rfl
      case served =>
          intro session current held
          cases place : system.served with
          | zero => simp [System.current, place] at current
          | succ last =>
              simp only [System.current, place] at current
              rcases Lookup.found_append current with old | ⟨_, rfl⟩
              · exact inv.served session (by simp only [System.current, place, old]) held
              · exact ⟨rfl, fun some => absurd rfl some, fun some => absurd rfl some⟩
  | chose client session result found here =>
      apply chain_update inv found
        (session_choose (inv.each client session found) result here)
      · rw [choose]
        split
        · rfl
        split <;> rfl
      · rw [choose]
        split
        · exact id
        split <;> exact id
  | sends client session ok found here =>
      apply chain_update inv found (session_sent (inv.each client session found) ok here)
      · rw [sent]
        split
        · exact Link.send_taken ..
        · rfl
      · rw [sent]
        split
        · rw [Link.send_broken]
          exact id
        · exact id
  | accepts waiting idle =>
      constructor
      case same => exact inv.same
      case each => exact inv.each
      case fresh =>
          exact fun client session late => inv.fresh client session (Nat.le_of_succ_le late)
      case served =>
          intro session current _
          have none := inv.fresh system.served session (Nat.le_refl _) current
          exact ⟨by rw [none]; rfl, fun some => absurd none some, fun some => absurd none some⟩
  | serves last session event server link made place found turn other took =>
      have own := inv.each last session found
      have current : system.current = some session := by simp only [System.current, place, found]
      obtain ⟨same, _, broken⟩ := LedServer.takes_keeps took
      constructor
      case same => exact LedDriver.same_trans inv.same (LedServer.turn_same turn)
      case each =>
          intro client one at_client
          rcases Lookup.found_set at_client with ⟨_, rfl⟩ | ⟨_, old⟩
          · obtain ⟨msg, earlier, carries, rest⟩ := own
            refine ⟨msg, earlier, fun held => ?_, rest⟩
            rw [same]
            exact carries (broken.symm.trans held)
          · exact inv.each client one old
      case fresh =>
          intro client one late at_client
          rcases Lookup.found_set at_client with ⟨rfl, _⟩ | ⟨_, old⟩
          · have before : system.served ≤ client := late
            omega
          · exact inv.fresh client one late old
      case served =>
          intro one now held
          simp only [System.current, System.update, place] at now
          rcases Lookup.found_set now with ⟨_, rfl⟩ | ⟨differs, _⟩
          · exact served_turn own (inv.served session current) turn other took held
          · exact absurd rfl differs
  | cuts client kept session found =>
      obtain ⟨msg, earlier, _, rest⟩ := inv.each client session found
      exact chain_update inv found ⟨msg, earlier, fun held => (nomatch held), rest⟩ rfl
        (fun held => (nomatch held))

theorem chain_start (gpfdat : Register) (msg : Memory 4) (bufOut : Memory MAX_BUF) :
    ChainInv gpfdat (start gpfdat msg bufOut) := by
  constructor
  case same => exact LedDriver.same_refl gpfdat
  case served => exact fun session current => (nomatch current)
  all_goals simp [start]

/-- The server has handled all that the client of the current session has
sent, at least one message, and the client is not in a `send` nor has had one
fail. -/
structure Handled (system : System) (session : Session) : Prop where
  current : system.current = some session
  handled : system.server.pc ≠ .writing ∧ system.server.pc ≠ .faulted
  held : session.link.broken = false
  all : session.link.arriving = []
  some : session.link.sent ≠ []
  client : session.pc = .menu ∨ session.pc = .finished

/-- Once a session's messages have been handled, the LEDs that are lit are
those chosen an odd number of times in it; and the other bits of the register
never change. -/
theorem leds_follow_choices (gpfdat : Register) (msg : Memory 4) (bufOut : Memory MAX_BUF)
    (events : List Event) (system : System) (calls : List Call)
    (ran : exec step (start gpfdat msg bufOut) events = some (system, calls)) :
    (∀ session, Handled system session → ∀ k, 1 ≤ k ∧ k ≤ 4 →
        (Lit system.server.gpfdat k ↔ session.choices.count k % 2 = 1)) ∧
      SameOutside gpfdat system.server.gpfdat := by
  have inv := Machine.exec_invariant (fun _ system => ChainInv gpfdat system)
    (fun _ _ _ _ _ inv taken => chain_turn inv (turn_of_step taken))
    (chain_start gpfdat msg bufOut) ran
  refine ⟨?_, inv.same⟩
  intro session handled k led
  obtain ⟨current, ⟨idle, sound⟩, held, all, some, client⟩ := handled
  have taken : session.link.taken = session.link.sent := by
    have whole := session.link.whole held
    rwa [all, List.append_nil] at whole
  have found : ∃ i : Nat, system.sessions[i]? = Option.some session := by
    cases place : system.served with
    | zero => simp [System.current, place] at current
    | succ last =>
        simp only [System.current, place] at current
        exact ⟨last, current⟩
  obtain ⟨i, found⟩ := found
  obtain ⟨_, earlier, carries, same, _⟩ := inv.each i session found
  obtain rfl := same client
  obtain ⟨length, last⟩ := carries held
  have chosen : session.choices ≠ [] := by
    rintro none
    rw [none, List.length_nil] at length
    exact some (List.eq_nil_of_length_eq_zero length)
  have shown := (inv.served session current held).shown (taken ▸ some) idle sound k led
  rw [shown, taken, last chosen, packed_bit session.choices led, odd, decide_eq_true_eq]

def twoClients : List Event :=
  [.connect, .scanf 0 (some 1), .send 0 true, .server .accept,
    .server (.recv (some [1, 0, 0, 0])), .connect, .scanf 1 (some 3), .server (.write true),
    .send 1 true, .scanf 0 none, .server (.recv (some [])), .server .accept,
    .server (.recv (some [0, 0, 1, 0])), .server (.write true), .scanf 1 (some 7)]

theorem leds_follow_choices_twoClients :
    ∃ system calls, exec step (start 0xffffffff#32 (.zeros _) (.zeros _)) twoClients =
        some (system, calls) ∧
      Lit system.server.gpfdat 3 ∧ ¬ Lit system.server.gpfdat 1 := by
  refine ⟨_, _, rfl, ?_⟩
  have follows := leds_follow_choices 0xffffffff#32 (.zeros _) (.zeros _) twoClients _ _ rfl
  have handled := follows.1 _ ⟨rfl, by decide, rfl, rfl, by decide, .inl rfl⟩
  exact ⟨(handled 3 (by decide)).mpr (by decide), fun lit => by
    have one := (handled 1 (by decide)).mp lit
    revert one
    decide⟩

end NetworkTest.LedChain
