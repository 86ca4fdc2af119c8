import NetworkTest.EchoClients
import NetworkTest.ThreadEcho

/-!
The echo client of thu/echo_thread, and of fri/sock_opt, in session with a
`func_thread` of its server, and any number of such sessions side by side. The
two ends are joined by the two directions of a connection that may break.
-/

namespace NetworkTest.EchoSession

open CBuffer (Bytes BUFSIZ Memory cstring)
open Channel (Link)
open Checksum (LongWidth)
open EchoClients (Client)
open Endings (Ends)
open Machine (Step exec)
open ThreadEcho (Act Made Worker Whole func_thread)

/-- `chunk` has been typed last. `client` holds the way down. -/
structure Session where
  chunk : Bytes
  client : EchoClients.State
  up : Link UInt8
  worker : Worker

inductive Event where
  | typed (chunk : Bytes)
  | write (result : Option Nat)
  | read (result : Option Bytes)
  | server (act : Act)
  | cut (up down : Nat)

/-- `echoed` also reports the chunk that was typed, and how much of it the
client's `write` has taken. -/
inductive Call where
  | original (text : Bytes)
  | clientStore (index count : Nat)
  | echoed (text chunk : Bytes) (written : Nat)
  | server (made : Made)
  deriving DecidableEq

def clientCall (chunk : Bytes) (written : Nat) : EchoClients.Call → List Call
  | .write _ => []
  | .store index count => [.clientStore index count]
  | .printed text => [.echoed text chunk written]

/-- The chunk is terminated where `read` has left off, if need be behind the buffer,
then compared. -/
def typed (session : Session) (chunk : Bytes) : Session × List Call :=
  let client := { EchoClients.start chunk with down := session.client.down }
  if cstring chunk = EchoClients.quit then
    ({ session with chunk := chunk, client := client, up := session.up.close },
      [.clientStore chunk.length 1])
  else
    ({ session with chunk := chunk, client := client },
      [.clientStore chunk.length 1, .original (cstring chunk)])

/-- What the client's `write` has put on the connection; when it fails the
client returns, and its end is closed. -/
def sent (chunk : Bytes) (up : Link UInt8) : Option Nat → Link UInt8
  | some n => up.send ((cstring chunk).take n)
  | none => up.close

/-- The server's side of the two links: what `read` has taken from the one, what
`write` and `close` have done to the other. -/
def taken (up : Link UInt8) : Act → Option (Link UInt8)
  | .read (.bytes data) => up.read BUFSIZ (some data)
  | .read .error => up.read BUFSIZ none
  | _ => some up

def answered (down : Link UInt8) (act : Act) (made : List Made) : Link UInt8 :=
  if act = .close then down.close else down.send (made.flatMap Made.writtenBytes)

instance (worker : Worker) : DecidablePred (Whole worker)
  | .write taken => inferInstanceAs (Decidable (taken = worker.pc.inHand.length))
  | .read _ => isTrue trivial
  | .close => isTrue trivial

/-- The server's writes take all they are given. -/
def step (width : LongWidth) : Step Session Event Call := fun session event =>
  match event with
  | .typed chunk =>
      if session.client.pc = .printed ∧ chunk ≠ [] ∧ chunk.length ≤ BUFSIZ then
        some (typed session chunk)
      else none
  | .write result =>
      match EchoClients.step .echo_thread width session.chunk session.client (.write result) with
      | none => none
      | some (client, made) =>
          some ({ session with client := client, up := sent session.chunk session.up result },
            made.flatMap (clientCall session.chunk client.written))
  | .read result =>
      match EchoClients.step .echo_thread width session.chunk session.client (.read result) with
      | none => none
      | some (client, made) =>
          some ({ session with
              client := client
              up := if result = none then session.up.close else session.up },
            made.flatMap (clientCall session.chunk client.written))
  | .server act =>
      if Whole session.worker act then
        match taken session.up act, func_thread session.worker act with
        | some up, some (worker, made) =>
            some ({ session with
                client := { session.client with down := answered session.client.down act made }
                up := up
                worker := worker },
              made.map .server)
        | _, _ => none
      else none
  | .cut up down =>
      some ({ session with
        up := session.up.cut up
        client := { session.client with down := session.client.down.cut down } }, [])

def start (rcvBuffer : Memory BUFSIZ) : Session where
  chunk := []
  client := { EchoClients.start [] with pc := .printed }
  up := .fresh
  worker := { pc := .reading, rcvBuffer := rcvBuffer }

/-! What one step can do. -/

inductive Turn (width : LongWidth) (session : Session) : Event → Session → List Call → Prop where
  | typed (chunk : Bytes) (here : session.client.pc = .printed) (fits : chunk.length ≤ BUFSIZ) :
      Turn width session (.typed chunk) (typed session chunk).1 (typed session chunk).2
  | writes (result : Option Nat) (client : EchoClients.State) (made : List EchoClients.Call)
      (turn : EchoClients.Turn .echo_thread width session.chunk session.client (.write result)
        client made) :
      Turn width session (.write result)
        { session with client := client, up := sent session.chunk session.up result }
        (made.flatMap (clientCall session.chunk client.written))
  | reads (result : Option Bytes) (client : EchoClients.State) (made : List EchoClients.Call)
      (turn : EchoClients.Turn .echo_thread width session.chunk session.client (.read result)
        client made) :
      Turn width session (.read result)
        { session with
          client := client
          up := if result = none then session.up.close else session.up }
        (made.flatMap (clientCall session.chunk client.written))
  | serves (act : Act) (up : Link UInt8) (worker : Worker) (made : List Made)
      (whole : Whole session.worker act) (got : taken session.up act = some up)
      (goes : ThreadEcho.Goes session.worker act worker made) :
      Turn width session (.server act)
        { session with
          client := { session.client with down := answered session.client.down act made }
          up := up
          worker := worker }
        (made.map .server)
  | cuts (up down : Nat) :
      Turn width session (.cut up down)
        { session with
          up := session.up.cut up
          client := { session.client with down := session.client.down.cut down } } []

theorem turn_of_step {width : LongWidth} {session next : Session} {event : Event}
    {made : List Call} (stepped : step width session event = some (next, made)) :
    Turn width session event next made := by
  unfold step at stepped
  split at stepped
  case h_1 chunk =>
      simp only [Option.ite_none_right_eq_some, Option.some.injEq] at stepped
      obtain ⟨⟨here, _, fits⟩, same⟩ := stepped
      obtain ⟨rfl, rfl⟩ := Prod.mk.inj same
      exact .typed chunk here fits
  case h_2 result =>
      split at stepped
      case h_1 => contradiction
      case h_2 client calls written =>
          cases stepped
          exact .writes result client calls (EchoClients.turn_of_step written)
  case h_3 result =>
      split at stepped
      case h_1 => contradiction
      case h_2 client calls read =>
          cases stepped
          exact .reads result client calls (EchoClients.turn_of_step read)
  case h_4 act =>
      simp only [Option.ite_none_right_eq_some] at stepped
      obtain ⟨whole, stepped⟩ := stepped
      split at stepped
      case h_1 up worker calls got went =>
          cases stepped
          exact .serves act up worker calls whole got (ThreadEcho.goes_of_func_thread went)
      case h_2 => contradiction
  case h_5 up down =>
      cases stepped
      exact .cuts up down

/-! Every byte that comes back has been sent. -/

/-- What the client has received of the bytes that its last `write` took; `past`
are those of the chunks before, all of which have come back. -/
structure Receiving (session : Session) (past : Bytes) : Prop where
  taken : session.client.down.taken = past ++ session.client.received
  sent : session.up.sent <+: past ++ (cstring session.chunk).take session.client.written
  count : session.client.n_recv = session.client.received.length
  left : session.client.received.length + session.client.n_left = session.client.written
  few : session.client.written ≤ (cstring session.chunk).length

/-- Between two chunks nothing is on its way. -/
def Outstanding (session : Session) : Prop :=
  match session.client.pc with
  | .receiving => 0 < session.client.n_left ∧ ∃ past, Receiving session past
  | .returned => True
  | _ => session.up.sent = session.client.down.taken

structure Inv (session : Session) : Prop where
  flow : (session.client.down.sent ++ session.worker.pc.inHand).Sublist session.up.taken
  few : session.up.sent.length ≤ session.client.down.taken.length + (cstring session.chunk).length
  outstanding : Outstanding session

theorem returned_of_flow {down up : Link UInt8} {hand : Bytes}
    (flow : (down.sent ++ hand).Sublist up.taken) : down.taken.Sublist up.sent := by
  have came : down.taken.Sublist down.sent :=
    ((List.prefix_append ..).trans down.ordered).sublist
  have read : up.taken.Sublist up.sent := ((List.prefix_append ..).trans up.ordered).sublist
  exact (came.trans (List.sublist_append_left ..)).trans (flow.trans read)

theorem send_sent_cases (link : Link UInt8) (data : Bytes) :
    (link.send data).sent = link.sent ∨ (link.send data).sent = link.sent ++ data := by
  cases held : link.broken with
  | true => exact .inl (by rw [Link.send_of_broken held])
  | false => exact .inr (Link.send_sent held data)

theorem whole_of_full {session : Session} {past received : Bytes} {count : Nat}
    (came : (past ++ received).Sublist session.up.sent)
    (sent : session.up.sent <+: past ++ (cstring session.chunk).take count)
    (full : received.length = count) (few : count ≤ (cstring session.chunk).length) :
    received = (cstring session.chunk).take count ∧ session.up.sent = past ++ received := by
  have within := came.trans sent.sublist
  have same : past ++ received = past ++ (cstring session.chunk).take count := by
    apply within.eq_of_length
    rw [List.length_append, List.length_append, List.length_take, full, Nat.min_eq_left few]
  refine ⟨List.append_cancel_left same, ?_⟩
  rw [← same] at sent
  exact sent.sublist.antisymm came

theorem inv_start (rcvBuffer : Memory BUFSIZ) : Inv (start rcvBuffer) := by
  constructor
  case flow => exact List.Sublist.refl _
  case few => exact Nat.le_refl _
  case outstanding => rfl

theorem taken_goes {up next : Link UInt8} {act : Act} {worker later : Worker}
    {made : List Made} (got : taken up act = some next)
    (goes : ThreadEcho.Goes worker act later made) :
    next.taken = up.taken ++ made.flatMap Made.readBytes := by
  cases goes with
  | seesEnd here => simpa [Made.readBytes] using Link.read_taken got
  | reads data fits more here => simpa [Made.readBytes] using Link.read_taken got
  | readFails here =>
      obtain ⟨rfl, _⟩ := @Link.read_error _ _ _ _ BUFSIZ got
      simp [Made.readBytes]
  | writes data count few here =>
      cases got
      simp [Made.readBytes]
  | writeFails here =>
      cases got
      simp [Made.readBytes]
  | closes here =>
      cases got
      simp [Made.readBytes]

theorem answered_sent (down : Link UInt8) (act : Act) (made : List Made) :
    (answered down act made).sent.Sublist (down.sent ++ made.flatMap Made.writtenBytes) := by
  unfold answered
  split
  · exact List.sublist_append_left ..
  · rcases send_sent_cases down (made.flatMap Made.writtenBytes) with stays | grows
    · rw [stays]
      exact List.sublist_append_left ..
    · rw [grows]

theorem answered_taken (down : Link UInt8) (act : Act) (made : List Made) :
    (answered down act made).taken = down.taken := by
  unfold answered
  split
  · rfl
  · exact Link.send_taken ..

theorem flow_serves {session : Session} {act : Act} {up : Link UInt8} {worker : Worker}
    {made : List Made} (inv : Inv session) (whole : Whole session.worker act)
    (got : taken session.up act = some up) (goes : ThreadEcho.Goes session.worker act worker made) :
    ((answered session.client.down act made).sent ++ worker.pc.inHand).Sublist up.taken := by
  have hand := ThreadEcho.hand_goes whole goes
  have answers := answered_sent session.client.down act made
  have reads := inv.flow.append (List.Sublist.refl (made.flatMap Made.readBytes))
  rw [List.append_assoc, hand, ← List.append_assoc, ← taken_goes got goes] at reads
  exact (answers.append (List.Sublist.refl _)).trans reads

theorem typed_up (session : Session) (chunk : Bytes) :
    (typed session chunk).1.up.sent = session.up.sent ∧
      (typed session chunk).1.up.taken = session.up.taken := by
  unfold typed
  split <;> exact ⟨rfl, rfl⟩

theorem typed_client (session : Session) (chunk : Bytes) :
    (typed session chunk).1.client =
        { EchoClients.start chunk with down := session.client.down } ∧
      (typed session chunk).1.chunk = chunk ∧
      (typed session chunk).1.worker = session.worker := by
  unfold typed
  split <;> exact ⟨rfl, rfl, rfl⟩

theorem outstanding_typed {session : Session} (inv : Inv session) (chunk : Bytes)
    (here : session.client.pc = .printed) : Outstanding (typed session chunk).1 := by
  have quiet := inv.outstanding
  simp only [Outstanding, here] at quiet
  obtain ⟨client, _, _⟩ := typed_client session chunk
  rw [Outstanding, client, (typed_up session chunk).1, quiet]
  simp only [EchoClients.start]
  -- `quit` stops the client before it has written; any other chunk is to be written next
  by_cases quits : cstring chunk = EchoClients.quit
  · simp [quits]
  · simp [quits]

theorem inv_writes {width : LongWidth} {session : Session} {result : Option Nat}
    {client : EchoClients.State} {made : List EchoClients.Call} (inv : Inv session)
    (turn : EchoClients.Turn .echo_thread width session.chunk session.client (.write result)
      client made) :
    Inv { session with client := client, up := sent session.chunk session.up result } := by
  cases turn with
  | writeFailed here => exact ⟨inv.flow, inv.few, trivial⟩
  | wrote n here fits =>
      have quiet := inv.outstanding
      simp only [Outstanding, here] at quiet
      have few : n ≤ (cstring session.chunk).length := fits
      have bytes : ((cstring session.chunk).take n).length = n := by
        rw [List.length_take, Nat.min_eq_left few]
      have grows := send_sent_cases session.up ((cstring session.chunk).take n)
      refine ⟨?flow, ?few, ?outstanding⟩
      case flow => simpa [sent] using inv.flow
      case few =>
          rcases grows with stays | more
          · simpa [sent, stays] using inv.few
          · simp only [sent, more, quiet, List.length_append, bytes]
            omega
      case outstanding =>
          -- a write of 0 bytes leaves nothing to wait for, and the client prints
          by_cases some_ : 0 < n
          · simp only [Outstanding, some_, if_true]
            refine ⟨trivial, session.client.down.taken, ?_⟩
            refine ⟨(List.append_nil _).symm, ?_, rfl, Nat.zero_add _, few⟩
            rcases grows with stays | more
            · rw [sent, stays, quiet]
              exact List.prefix_append ..
            · simp only [sent, more, quiet]
              exact List.prefix_refl _
          · obtain rfl : n = 0 := by omega
            simp only [Outstanding, Nat.lt_irrefl, if_false]
            rcases grows with stays | more
            · rw [sent, stays, quiet]
            · rw [sent, more, List.take_zero, List.append_nil, quiet]

theorem whole_of_read {session : Session} {data : Bytes} {down : Link UInt8} (inv : Inv session)
    (here : session.client.pc = .receiving)
    (got : session.client.down.read session.client.n_left (some data) = some down)
    (full : ¬ 0 < session.client.n_left - data.length) :
    session.client.received ++ data = (cstring session.chunk).take session.client.written ∧
      session.up.sent = down.taken := by
  have before := inv.outstanding
  simp only [Outstanding, here] at before
  obtain ⟨waits, past, came, sent, _, left, few⟩ := before
  obtain ⟨_, _, fits, _⟩ := Link.read_data got
  have now : down.taken = past ++ (session.client.received ++ data) := by
    rw [Link.read_taken got, came, List.append_assoc]
  have length : (session.client.received ++ data).length = session.client.written := by
    rw [List.length_append]
    omega
  have flow := inv.flow
  rw [← (Link.read_sent got).1] at flow
  -- what has come back is a part of what was sent, and as long
  have all := returned_of_flow flow
  rw [now] at all ⊢
  exact whole_of_full all sent length few

theorem inv_reads {width : LongWidth} {session : Session} {result : Option Bytes}
    {client : EchoClients.State} {made : List EchoClients.Call} (inv : Inv session)
    (turn : EchoClients.Turn .echo_thread width session.chunk session.client (.read result)
      client made) :
    Inv { session with
      client := client
      up := if result = none then session.up.close else session.up } := by
  cases turn with
  | readFailed here => exact ⟨inv.flow, inv.few, trivial⟩
  | reads data down here got =>
      have grows := Link.read_taken got
      have same := (Link.read_sent got).1
      refine ⟨?flow, ?few, ?outstanding⟩
      case flow => simpa [same] using inv.flow
      case few =>
          have bound := inv.few
          simp only [reduceCtorEq, if_false, grows, List.length_append]
          omega
      case outstanding =>
          by_cases more : 0 < session.client.n_left - data.length
          · have before := inv.outstanding
            simp only [Outstanding, here] at before
            obtain ⟨waits, past, came, sent, count, left, few⟩ := before
            simp only [Outstanding, more, if_true, reduceCtorEq, if_false]
            refine ⟨trivial, past, ?_, sent, ?_, ?_, few⟩
            · rw [grows, came, List.append_assoc]
            · simp only [List.length_append, count]
            · simp only [List.length_append]
              omega
          · simp only [Outstanding, more, if_false, reduceCtorEq]
            exact (whole_of_read inv here got more).2

theorem outstanding_of_same {session : Session} (before : Outstanding session)
    {up down : Link UInt8} (worker : Worker) (upSame : up.sent = session.up.sent)
    (downSame : down.taken = session.client.down.taken) :
    Outstanding { session with
      client := { session.client with down := down }, up := up, worker := worker } := by
  unfold Outstanding at before ⊢
  cases here : session.client.pc with
  | receiving =>
      rw [here] at before
      obtain ⟨waits, past, receiving⟩ := before
      refine ⟨waits, past, ?_⟩
      exact ⟨downSame.trans receiving.taken, upSame ▸ receiving.sent, receiving.count,
        receiving.left, receiving.few⟩
  | returned => trivial
  | stopped =>
      rw [here] at before
      exact upSame.trans (Eq.trans before downSame.symm)
  | writing =>
      rw [here] at before
      exact upSame.trans (Eq.trans before downSame.symm)
  | printed =>
      rw [here] at before
      exact upSame.trans (Eq.trans before downSame.symm)

theorem taken_sent {up next : Link UInt8} {act : Act} (got : taken up act = some next) :
    next.sent = up.sent ∧ next.closed = up.closed ∧ next.broken = up.broken := by
  match act, got with
  | .read (.bytes data), got => exact @Link.read_sent _ _ _ _ BUFSIZ (some data) got
  | .read .error, got => exact @Link.read_sent _ _ _ _ BUFSIZ none got
  | .write count, got =>
      cases got
      exact ⟨rfl, rfl, rfl⟩
  | .close, got =>
      cases got
      exact ⟨rfl, rfl, rfl⟩

theorem inv_turn {width : LongWidth} {session next : Session} {event : Event}
    {made : List Call} (inv : Inv session) (turn : Turn width session event next made) :
    Inv next := by
  cases turn with
  | typed chunk here fits =>
      obtain ⟨client, chunkSame, workerSame⟩ := typed_client session chunk
      obtain ⟨upSent, upTaken⟩ := typed_up session chunk
      have quiet := inv.outstanding
      simp only [Outstanding, here] at quiet
      constructor
      case flow =>
          rw [client, workerSame, upTaken]
          exact inv.flow
      case few =>
          rw [client, upSent, quiet]
          exact Nat.le_add_right ..
      case outstanding => exact outstanding_typed inv chunk here
  | writes result client made turn => exact inv_writes inv turn
  | reads result client made turn => exact inv_reads inv turn
  | serves act up worker made whole got goes =>
      have sentSame := (taken_sent got).1
      have takenSame := answered_taken session.client.down act made
      constructor
      case flow => exact flow_serves inv whole got goes
      case few => simpa [sentSame, takenSame] using inv.few
      case outstanding =>
          exact outstanding_of_same inv.outstanding worker sentSame takenSame
  | cuts up down =>
      exact ⟨inv.flow, inv.few, outstanding_of_same inv.outstanding session.worker rfl rfl⟩

theorem inv_run {width : LongWidth} {rcvBuffer : Memory BUFSIZ} {events : List Event}
    {session : Session} {calls : List Call}
    (ran : exec (step width) (start rcvBuffer) events = some (session, calls)) : Inv session :=
  Machine.exec_invariant (fun _ => Inv)
    (fun _ _ _ _ _ inv taken => inv_turn inv (turn_of_step taken)) (inv_start rcvBuffer) ran

/-! What is printed. -/

/-- An answer shows what the client's `write` has taken of the chunk. -/
def Right : Call → Prop
  | .echoed text chunk written => text = (cstring chunk).take written
  | _ => True

theorem right_looped {chunk : Bytes} {state : EchoClients.State} {written : Nat}
    (whole : ¬ 0 < state.n_left → state.received = (cstring chunk).take written) :
    ∀ call ∈ (EchoClients.looped state).2.flatMap (clientCall chunk written), Right call := by
  unfold EchoClients.looped
  split
  case isTrue => simp
  case isFalse full =>
      -- the text that was typed has no zero, so nothing ends it earlier
      have text : cstring ((cstring chunk).take written) = (cstring chunk).take written :=
        CBuffer.cstring_of_nonzero fun byte member =>
          CBuffer.cstring_nonzero chunk byte (List.mem_of_mem_take member)
      simp [clientCall, Right, whole full, text]

theorem right_turn {width : LongWidth} {session next : Session} {event : Event}
    {made : List Call} (inv : Inv session) (turn : Turn width session event next made) :
    ∀ call ∈ made, Right call := by
  cases turn with
  | typed chunk here fits =>
      unfold typed
      split <;> simp [Right]
  | writes result client made turn =>
      cases turn with
      | writeFailed here => simp [clientCall]
      | wrote n here fits =>
          rw [List.flatMap_cons]
          apply right_looped
          intro nothing
          obtain rfl : n = 0 := Nat.eq_zero_of_not_pos nothing
          rfl
  | reads result client made turn =>
      cases turn with
      | readFailed here => simp
      | reads data down here got =>
          rw [List.flatMap_cons, List.forall_mem_append]
          refine ⟨by simp [clientCall, Right], ?_⟩
          apply right_looped
          intro full
          exact (whole_of_read inv here got full).1
  | serves act up worker made whole got goes => simp [Right]
  | cuts up down => simp

theorem right_run {width : LongWidth} {rcvBuffer : Memory BUFSIZ} {events : List Event}
    {session : Session} {calls : List Call}
    (ran : exec (step width) (start rcvBuffer) events = some (session, calls)) :
    ∀ call ∈ calls, Right call := by
  have kept := Machine.exec_invariant
    (fun calls session => Inv session ∧ ∀ call ∈ calls, Right call)
    (fun before session event next made holds taken => by
      have turn := turn_of_step taken
      exact ⟨inv_turn holds.1 turn,
        List.forall_mem_append.mpr ⟨holds.2, right_turn holds.1 turn⟩⟩)
    ⟨inv_start rcvBuffer, by simp⟩ ran
  exact kept.2

/-! Where both ends store. -/

def StoreInside : Call → Prop
  | .clientStore index count => index + count ≤ BUFSIZ
  | .server made => ThreadEcho.StoreInside made
  | _ => True

/-- A chunk leaves room for its zero, and no `read` of the server fails. -/
def Fits : Event → Prop
  | .typed chunk => chunk.length ≠ BUFSIZ
  | .server (.read .error) => False
  | _ => True

/-- The server never reads more than the client's last chunk. -/
theorem arriving_few {session : Session} (inv : Inv session) :
    session.up.arriving.length ≤ (cstring session.chunk).length := by
  have down := session.client.down.ordered.length_le
  have flow := inv.flow.length_le
  have up := session.up.ordered.length_le
  have few := inv.few
  rw [List.length_append] at down flow up
  omega

theorem stores_looped {chunk : Bytes} {state : EchoClients.State} {written : Nat}
    (inside : state.n_recv < BUFSIZ) :
    ∀ call ∈ (EchoClients.looped state).2.flatMap (clientCall chunk written),
      StoreInside call := by
  unfold EchoClients.looped
  split
  · simp
  · have ends : state.n_recv + 1 ≤ BUFSIZ := inside
    simpa [clientCall, StoreInside] using ends

theorem stores_reads {width : LongWidth} {session : Session} {result : Option Bytes}
    {client : EchoClients.State} {made : List EchoClients.Call} (inv : Inv session)
    (room : session.chunk.length < BUFSIZ)
    (turn : EchoClients.Turn .echo_thread width session.chunk session.client (.read result)
      client made) :
    ∀ call ∈ made.flatMap (clientCall session.chunk client.written), StoreInside call := by
  cases turn with
  | readFailed here => simp
  | reads data down here got =>
      have before := inv.outstanding
      simp only [Outstanding, here] at before
      obtain ⟨waits, past, receiving⟩ := before
      obtain ⟨_, _, fits, _⟩ := Link.read_data got
      have count := receiving.count
      have left := receiving.left
      have few := receiving.few
      have short := CBuffer.cstring_length_le session.chunk
      rw [List.flatMap_cons, List.forall_mem_append]
      constructor
      · simp only [clientCall, List.forall_mem_singleton, StoreInside]
        omega
      · apply stores_looped
        simp only
        omega

theorem fits_read_iff {session : Session} {act : Act} {up : Link UInt8} (inv : Inv session)
    (room : session.chunk.length < BUFSIZ) (got : taken session.up act = some up) :
    ThreadEcho.ReadFits act ↔ Fits (.server act) := by
  match act, got with
  | .read .error, _ => exact Iff.rfl
  | .write count, _ => exact Iff.rfl
  | .close, _ => exact Iff.rfl
  | .read (.bytes data), got =>
      -- the server cannot find more than one chunk, which is shorter than its buffer
      have piece := congrArg List.length (@Link.read_arriving _ _ _ _ BUFSIZ _ got)
      have few := arriving_few inv
      have short := CBuffer.cstring_length_le session.chunk
      rw [List.length_append] at piece
      refine iff_of_true ?_ trivial
      change data.length ≠ BUFSIZ
      omega

theorem stores_turn_iff {width : LongWidth} {session next : Session} {event : Event}
    {made : List Call} (inv : Inv session) (room : session.chunk.length < BUFSIZ)
    (turn : Turn width session event next made) :
    (∀ call ∈ made, StoreInside call) ↔ Fits event := by
  cases turn with
  | typed chunk here fits =>
      have ends : chunk.length + 1 ≤ BUFSIZ ↔ chunk.length ≠ BUFSIZ := by omega
      unfold typed
      split
      · simpa [StoreInside, Fits] using ends
      · simpa [StoreInside, Fits] using ends
  | writes result client made turn =>
      refine iff_of_true ?_ trivial
      cases turn with
      | writeFailed here => simp [clientCall]
      | wrote n here fits =>
          rw [List.flatMap_cons]
          exact stores_looped (show 0 < BUFSIZ by decide)
  | reads result client made turn => exact iff_of_true (stores_reads inv room turn) trivial
  | serves act up worker made whole got goes =>
      rw [List.forall_mem_map, ← fits_read_iff inv room got]
      exact ThreadEcho.stores_goes_iff goes
  | cuts up down => simp [Fits]

theorem room_turn {width : LongWidth} {session next : Session} {event : Event}
    {made : List Call} (room : session.chunk.length < BUFSIZ) (fits : Fits event)
    (turn : Turn width session event next made) : next.chunk.length < BUFSIZ := by
  cases turn with
  | typed chunk here small =>
      rw [(typed_client session chunk).2.1]
      exact Nat.lt_of_le_of_ne small fits
  | writes result client made turn => exact room
  | reads result client made turn => exact room
  | serves act up worker made whole got goes => exact room
  | cuts up down => exact room

theorem stores_run_iff {width : LongWidth} {rcvBuffer : Memory BUFSIZ} {events : List Event}
    {session : Session} {calls : List Call}
    (ran : exec (step width) (start rcvBuffer) events = some (session, calls)) :
    (∀ call ∈ calls, StoreInside call) ↔ ∀ event ∈ events, Fits event := by
  rw [← Machine.along_iff_forall ran]
  apply Machine.calls_good_iff_along StoreInside
    (fun session => Inv session ∧ session.chunk.length < BUFSIZ) ?_ ?_ ?_ ran
  · intro session event next made holds fits taken
    have turn := turn_of_step taken
    exact ⟨inv_turn holds.1 turn, room_turn holds.2 fits turn⟩
  · intro session event next made holds taken
    exact stores_turn_iff holds.1 holds.2 (turn_of_step taken)
  · exact ⟨inv_start rcvBuffer, (by decide : 0 < BUFSIZ)⟩

section

universe u
variable {Index : Type u} [DecidableEq Index]

/-- Any number of clients, each with a thread of the server. -/
def sessions (width : LongWidth) :
    Machine.Step (Index → Session) (Index × Event) (Index × Call) :=
  Projection.product (step width)

/-- However the steps of all the sessions, and the pieces of all the streams, are
interleaved, and whether or not connections break: each `echoed Data` line shows
the bytes of its own client's chunk that have been written, and nothing else. -/
theorem sessions_right (width : LongWidth) (stack : Index → Memory BUFSIZ)
    (events : List (Index × Event)) (last : Index → Session) (calls : List (Index × Call))
    (ran : exec (sessions width) (fun index => start (stack index)) events =
      some (last, calls)) :
    ∀ pair ∈ calls, Right pair.2 := by
  intro pair member
  have alone := Projection.product_projects ran pair.1
  exact right_run alone pair.2 (List.mem_filterMap.mpr ⟨pair, member, if_pos rfl⟩)

def twoClients : List (Bool × Event) :=
  [(false, .typed [104, 105, 10]), (true, .typed [97, 10]), (false, .write (some 3)),
    (false, .server (.read (.bytes [104, 105]))), (true, .write (some 2)),
    (false, .server (.write 2)), (true, .server (.read (.bytes [97, 10]))),
    (false, .read (some [104])), (true, .server (.write 2)),
    (false, .server (.read (.bytes [10]))), (true, .read (some [97, 10])),
    (false, .read (some [105])), (false, .server (.write 1)), (false, .read (some [10]))]

def zeros (_ : Bool) : Memory BUFSIZ := Memory.zeros BUFSIZ

theorem sessions_right_twoClients :
    ∃ last calls, exec (sessions .bits64) (fun index => start (zeros index)) twoClients =
      some (last, calls) ∧ ∀ pair ∈ calls, Right pair.2 := by
  have runs : (exec (sessions .bits64) (fun index => start (zeros index)) twoClients).isSome =
      true := by decide +kernel
  obtain ⟨last, calls, ran⟩ := Machine.exec_of_isSome runs
  exact ⟨last, calls, ran, sessions_right .bits64 zeros twoClients last calls ran⟩

/-- All stores of all clients and threads are inside their buffers if and only
if no chunk fills the client's buffer and no `read` of the server fails. -/
theorem sessions_stores_iff (width : LongWidth) (stack : Index → Memory BUFSIZ)
    (events : List (Index × Event)) (last : Index → Session) (calls : List (Index × Call))
    (ran : exec (sessions width) (fun index => start (stack index)) events =
      some (last, calls)) :
    (∀ pair ∈ calls, StoreInside pair.2) ↔ ∀ pair ∈ events, Fits pair.2 := by
  have alone := fun index => stores_run_iff (Projection.product_projects ran index)
  constructor
  · intro inside pair member
    refine (alone pair.1).mp ?_ pair.2 (List.mem_filterMap.mpr ⟨pair, member, if_pos rfl⟩)
    intro call mine
    obtain ⟨other, here, own⟩ := List.mem_filterMap.mp mine
    simp only [Projection.mine, Option.ite_none_right_eq_some, Option.some.injEq] at own
    exact own.2 ▸ inside other here
  · intro fits pair member
    refine (alone pair.1).mpr ?_ pair.2 (List.mem_filterMap.mpr ⟨pair, member, if_pos rfl⟩)
    intro event mine
    obtain ⟨other, here, own⟩ := List.mem_filterMap.mp mine
    simp only [Projection.mine, Option.ite_none_right_eq_some, Option.some.injEq] at own
    exact own.2 ▸ fits other here

theorem sessions_stores_twoClients :
    ∃ last calls, exec (sessions .bits64) (fun index => start (zeros index)) twoClients =
      some (last, calls) ∧ ∀ pair ∈ calls, StoreInside pair.2 := by
  have runs : (exec (sessions .bits64) (fun index => start (zeros index)) twoClients).isSome =
      true := by decide +kernel
  obtain ⟨last, calls, ran⟩ := Machine.exec_of_isSome runs
  refine ⟨last, calls, ran, ?_⟩
  apply (sessions_stores_iff .bits64 zeros twoClients last calls ran).mpr
  simp [twoClients, Fits, BUFSIZ]

end

/-! An exchange comes to its end. -/

/-- The client is in its session, and nothing is closed. -/
def Active (session : Session) : Prop :=
  session.client.pc ≠ .stopped ∧ session.client.pc ≠ .returned

/-- Without a break nothing is lost on the way, and the server waits or has
something to write. -/
structure Held (session : Session) : Prop where
  up : session.up.broken = false
  down : session.client.down.broken = false
  flow : session.client.down.sent ++ session.worker.pc.inHand = session.up.taken
  left : session.client.pc = .receiving →
    session.up.sent.length = session.client.down.taken.length + session.client.n_left
  open_ : Active session → session.up.closed = false ∧ session.client.down.closed = false ∧
    (session.worker.pc = .reading ∨ ∃ data, data ≠ [] ∧ session.worker.pc = .writing data)

theorem held_start (rcvBuffer : Memory BUFSIZ) : Held (start rcvBuffer) := by
  constructor
  case left => simp [start]
  case open_ => exact fun _ => ⟨rfl, rfl, .inl rfl⟩
  all_goals rfl

theorem held_typed {session : Session} (held : Held session) (chunk : Bytes)
    (here : session.client.pc = .printed) : Held (typed session chunk).1 := by
  have active : Active session := by simp [Active, here]
  have waits := held.open_ active
  obtain ⟨up, down, flow, _, _⟩ := held
  unfold typed
  split
  case isTrue quits =>
      refine ⟨up, down, flow, ?_, ?_⟩
      · simp [EchoClients.start, quits]
      · simp [Active, EchoClients.start, quits]
  case isFalse going =>
      refine ⟨up, down, flow, ?_, fun _ => waits⟩
      simp [EchoClients.start, going]

theorem held_writes {width : LongWidth} {session : Session} {result : Option Nat}
    {client : EchoClients.State} {made : List EchoClients.Call} (inv : Inv session)
    (held : Held session)
    (turn : EchoClients.Turn .echo_thread width session.chunk session.client (.write result)
      client made) :
    Held { session with client := client, up := sent session.chunk session.up result } := by
  cases turn with
  | writeFailed here => exact ⟨held.up, held.down, held.flow, by simp, by simp [Active]⟩
  | wrote n here fits =>
      have quiet := inv.outstanding
      simp only [Outstanding, here] at quiet
      have waits := held.open_ (by simp [Active, here])
      have few : n ≤ (cstring session.chunk).length := fits
      have same := Link.send_sent held.up ((cstring session.chunk).take n)
      refine ⟨?_, held.down, ?_, fun _ => ?_, fun _ => ?_⟩
      · exact (Link.send_broken ..).trans held.up
      · exact held.flow.trans (Link.send_taken ..).symm
      · simp only [sent, same, quiet, List.length_append, List.length_take]
        omega
      · exact ⟨(Link.send_closed ..).trans waits.1, waits.2⟩

theorem held_reads {width : LongWidth} {session : Session} {result : Option Bytes}
    {client : EchoClients.State} {made : List EchoClients.Call} (held : Held session)
    (turn : EchoClients.Turn .echo_thread width session.chunk session.client (.read result)
      client made) :
    Held { session with
      client := client
      up := if result = none then session.up.close else session.up } := by
  cases turn with
  | readFailed here => exact ⟨held.up, held.down, held.flow, by simp, by simp [Active]⟩
  | reads data down here got =>
      have waits := held.open_ (by simp [Active, here])
      have left := held.left here
      obtain ⟨same, closed, broken⟩ := Link.read_sent got
      obtain ⟨_, _, fits, _⟩ := Link.read_data got
      refine ⟨held.up, broken.trans held.down, ?_, fun _ => ?_, fun _ => ?_⟩
      · simpa [same] using held.flow
      · simp only [reduceCtorEq, if_false, Link.read_taken got, List.length_append]
        omega
      · exact ⟨waits.1, closed.trans waits.2.1, waits.2.2⟩

theorem answered_held {down : Link UInt8} {act : Act} {worker later : Worker}
    {made : List Made} (held : down.broken = false)
    (goes : ThreadEcho.Goes worker act later made) :
    (answered down act made).sent = down.sent ++ made.flatMap Made.writtenBytes ∧
      (answered down act made).arriving = down.arriving ++ made.flatMap Made.writtenBytes ∧
      (answered down act made).broken = false ∧
      ((answered down act made).closed = true → down.closed = true ∨ act = .close) := by
  unfold answered
  by_cases closes : act = .close
  · subst closes
    rw [if_pos rfl]
    cases goes with
    | closes here => exact ⟨(List.append_nil _).symm, (List.append_nil _).symm, held, by simp⟩
  · rw [if_neg closes]
    refine ⟨Link.send_sent held _, Link.send_arriving held _, ?_, ?_⟩
    · exact (Link.send_broken ..).trans held
    · rw [Link.send_closed]
      exact .inl

theorem active_goes {session : Session} {act : Act} {up : Link UInt8} {worker : Worker}
    {made : List Made} (held : Held session) (active : Active session)
    (got : taken session.up act = some up)
    (goes : ThreadEcho.Goes session.worker act worker made) :
    (∃ data, data ≠ [] ∧ act = .read (.bytes data) ∧ worker.pc = .writing data) ∨
      ∃ data, data ≠ [] ∧ act ≠ .close ∧ session.worker.pc = .writing data ∧
        worker.pc = .reading ∧ up = session.up := by
  obtain ⟨open_, _, waits⟩ := held.open_ active
  cases goes with
  | seesEnd here =>
      -- the way up is open, so its end cannot be seen
      obtain ⟨_, _, _, last⟩ := @Link.read_data _ _ _ _ BUFSIZ [] got
      have ended := (last rfl).2
      simp [open_, held.up] at ended
  | reads data fits more here => exact .inl ⟨data, more, rfl, rfl⟩
  | readFails here => exact absurd got (@Link.read_held _ _ _ _ BUFSIZ held.up)
  | writes data count few here =>
      cases got
      rcases waits with reading | ⟨other, more, writing⟩
      · simp [here] at reading
      · rw [here] at writing
        cases writing
        exact .inr ⟨data, more, by simp, here, rfl, rfl⟩
  | writeFails here => simp [here] at waits
  | closes here => simp [here] at waits

theorem held_serves {session : Session} {act : Act} {up : Link UInt8} {worker : Worker}
    {made : List Made} (held : Held session) (whole : Whole session.worker act)
    (got : taken session.up act = some up)
    (goes : ThreadEcho.Goes session.worker act worker made) :
    Held { session with
      client := { session.client with down := answered session.client.down act made }
      up := up
      worker := worker } := by
  obtain ⟨same, closed, broken⟩ := taken_sent got
  obtain ⟨grows, _, unbroken, closes⟩ := answered_held held.down goes
  have hand := ThreadEcho.hand_goes whole goes
  refine ⟨broken.trans held.up, unbroken, ?_, fun here => ?_, fun active => ?_⟩
  · change (answered session.client.down act made).sent ++ worker.pc.inHand = up.taken
    rw [grows, List.append_assoc, ← hand, ← List.append_assoc, held.flow, taken_goes got goes]
  · have left := held.left here
    simpa [same, answered_taken] using left
  -- an active session has a server that reads or writes, so it closes nothing
  · obtain ⟨upOpen, downOpen, _⟩ := held.open_ active
    refine ⟨closed.trans upOpen, ?_, ?_⟩
    · by_contra shut
      rcases closes (Bool.eq_true_of_not_eq_false shut) with before | close
      · simp [downOpen] at before
      · rcases active_goes held active got goes with ⟨_, _, other, _⟩ | ⟨_, _, other, _⟩
        · rw [close] at other
          cases other
        · exact other close
    · rcases active_goes held active got goes with
        ⟨data, more, _, writing⟩ | ⟨_, _, _, _, reading, _⟩
      · exact .inr ⟨data, more, writing⟩
      · exact .inl reading

def Uncut : Event → Prop
  | .cut _ _ => False
  | _ => True

theorem held_turn {width : LongWidth} {session next : Session} {event : Event}
    {made : List Call} (inv : Inv session) (held : Held session) (uncut : Uncut event)
    (turn : Turn width session event next made) : Held next := by
  cases turn with
  | typed chunk here fits => exact held_typed held chunk here
  | writes result client made turn => exact held_writes inv held turn
  | reads result client made turn => exact held_reads held turn
  | serves act up worker made whole got goes => exact held_serves held whole got goes
  | cuts up down => exact uncut.elim

/-- The steps that bring a chunk to its answer, with no `read` of the client that
fails. -/
def Exchange : Event → Prop
  | .read result => result ≠ none
  | .server _ => True
  | _ => False

def distance (session : Session) : Nat :=
  -- a byte on its way up is read, then written, then read by the client
  3 * session.up.arriving.length + 2 * session.worker.pc.inHand.length +
    session.client.down.arriving.length

structure Exchanging (session : Session) : Prop where
  inv : Inv session
  held : Held session
  here : session.client.pc = .receiving ∨ session.client.pc = .printed

theorem Exchanging.active {session : Session} (exchanging : Exchanging session) :
    Active session := by
  rcases exchanging.here with here | here <;> simp [Active, here]

theorem distance_serves {session : Session} {act : Act} {up : Link UInt8} {worker : Worker}
    {made : List Made} (held : Held session) (active : Active session)
    (whole : Whole session.worker act) (got : taken session.up act = some up)
    (goes : ThreadEcho.Goes session.worker act worker made) :
    distance { session with
        client := { session.client with down := answered session.client.down act made }
        up := up
        worker := worker } + 1 ≤ distance session := by
  have way := active_goes held active got goes
  obtain ⟨_, arrives, _, _⟩ := answered_held held.down goes
  simp only [distance, arrives, List.length_append]
  cases goes with
  | reads data fits more here =>
      have piece := congrArg List.length (@Link.read_arriving _ _ _ _ BUFSIZ _ got)
      have some_ := List.length_pos_iff.mpr more
      rw [List.length_append] at piece
      simp only [here, ThreadEcho.Pc.inHand, Made.writtenBytes, List.flatMap_cons,
        List.flatMap_nil, List.append_nil, List.length_nil]
      omega
  | writes data count few here =>
      cases got
      obtain rfl : count = data.length := by
        simpa [Whole, here, ThreadEcho.Pc.inHand] using whole
      obtain ⟨_, _, other, _⟩ | ⟨other, more, _, writing, _⟩ := way
      · cases other
      · rw [here] at writing
        cases writing
        have some_ := List.length_pos_iff.mpr more
        simp only [here, ThreadEcho.Pc.inHand, Made.writtenBytes, List.flatMap_cons,
          List.flatMap_nil, List.append_nil, List.take_length, List.length_nil]
        omega
  | seesEnd here => simp [here] at way
  | readFails here => simp [here] at way
  | writeFails here => simp [here] at way
  | closes here => simp [here] at way

theorem exchanging_turn {width : LongWidth} {session next : Session} {event : Event}
    {made : List Call} (exchanging : Exchanging session) (exchange : Exchange event)
    (turn : Turn width session event next made) :
    Exchanging next ∧ distance next + 1 ≤ distance session := by
  have active := exchanging.active
  obtain ⟨inv, held, here⟩ := exchanging
  have kept := inv_turn inv turn
  cases turn with
  | typed chunk here fits => exact exchange.elim
  | writes result client made turn => exact exchange.elim
  | cuts up down => exact exchange.elim
  | reads result client made turn =>
      have still := held_reads held turn
      cases turn with
      | readFailed here => exact absurd rfl exchange
      | reads data down here got =>
          refine ⟨⟨kept, still, ?_⟩, ?_⟩
          · simp only
            split <;> simp
          · obtain ⟨_, _, _, last⟩ := Link.read_data got
            have piece := congrArg List.length (Link.read_arriving got)
            have some_ : 0 < data.length := by
              refine List.length_pos_iff.mpr fun nothing => ?_
              have ended := (last nothing).2
              simp [held.down, (held.open_ active).2.1] at ended
            rw [List.length_append] at piece
            simp only [distance, reduceCtorEq, if_false]
            omega
  | serves act up worker made whole got goes =>
      have still := held_serves held whole got goes
      refine ⟨⟨kept, still, here⟩, ?_⟩
      exact distance_serves held active whole got goes

theorem read_one_byte {link : Link UInt8} {count : Nat} (room : 0 < count)
    (coming : link.arriving ≠ []) : ∃ byte, link.read count (some [byte]) = some (link.take 1) := by
  obtain ⟨byte, rest, arriving⟩ := List.exists_cons_of_ne_nil coming
  exact ⟨byte, by simp [Link.read, arriving, Nat.succ_le_of_lt room]⟩

theorem exchanging_moves {width : LongWidth} {session : Session}
    (exchanging : Exchanging session) :
    session.client.pc = .printed ∨
      ∃ event, True ∧ Exchange event ∧ (step width session event).isSome = true := by
  have active := exchanging.active
  obtain ⟨inv, held, here⟩ := exchanging
  rcases here with here | printed
  case inr => exact .inl printed
  right
  have before := inv.outstanding
  simp only [Outstanding, here] at before
  obtain ⟨_, _, waits⟩ := held.open_ active
  by_cases coming : session.client.down.arriving = []
  case neg =>
      obtain ⟨byte, got⟩ := read_one_byte before.1 coming
      refine ⟨.read (some [byte]), trivial, by simp [Exchange], ?_⟩
      simp only [step, EchoClients.step, here, got, Option.isSome_some]
  case pos =>
      rcases waits with reading | ⟨data, _, writing⟩
      · -- all that is left is on its way up
        have left := held.left here
        have up := congrArg List.length (session.up.whole held.up)
        have down := congrArg List.length (session.client.down.whole held.down)
        have flow := congrArg List.length held.flow
        simp only [reading, ThreadEcho.Pc.inHand, List.append_nil] at flow
        rw [List.length_append] at up
        rw [coming, List.append_nil] at down
        have more : session.up.arriving ≠ [] := by
          rw [← List.length_pos_iff]
          omega
        obtain ⟨byte, got⟩ := @read_one_byte session.up BUFSIZ (by decide) more
        refine ⟨.server (.read (.bytes [byte])), trivial, trivial, ?_⟩
        have fits : [byte].length ≤ BUFSIZ := (by decide : 1 ≤ BUFSIZ)
        simp only [step, Whole, if_true, taken, got, func_thread, reading, fits, dite_true,
          List.cons_ne_nil, if_false, Option.isSome_some]
      · refine ⟨.server (.write data.length), trivial, trivial, ?_⟩
        simp [step, Whole, taken, func_thread, writing, ThreadEcho.Pc.inHand]

/-- Once the client has written a chunk, the answer is printed after finitely
many steps of the two ends, in whatever pieces it comes and goes. -/
theorem exchange_ends (width : LongWidth) (rcvBuffer : Memory BUFSIZ) (events : List Event)
    (session : Session) (calls : List Call) (uncut : ∀ event ∈ events, Uncut event)
    (ran : exec (step width) (start rcvBuffer) events = some (session, calls))
    (here : session.client.pc = .receiving) :
    Ends (step width) (fun _ => True) Exchange (fun _ => True) (·.client.pc = .printed)
      session := by
  have kept := Machine.exec_invariant_forall (fun _ session => Inv session ∧ Held session)
    (fun _ _ _ _ _ holds uncut taken => by
      have turn := turn_of_step taken
      exact ⟨inv_turn holds.1 turn, held_turn holds.1 holds.2 uncut turn⟩)
    ⟨inv_start rcvBuffer, held_start rcvBuffer⟩ uncut ran
  apply Endings.ends_of_measure Exchanging distance
  · intro session event next made exchanging exchange taken
    obtain ⟨still, nearer⟩ := exchanging_turn exchanging (exchange trivial) (turn_of_step taken)
    exact ⟨still, fun _ _ => trivial, by simpa using nearer⟩
  · exact fun session exchanging => exchanging_moves exchanging
  · exact ⟨kept.1, kept.2, .inl here⟩

def underWay : List Event :=
  [.typed [104, 105, 10], .write (some 3), .server (.read (.bytes [104, 105]))]

theorem exchange_ends_underWay :
    ∃ session calls,
      exec (step .bits64) (start (zeros false)) underWay = some (session, calls) ∧
        Ends (step .bits64) (fun _ => True) Exchange (fun _ => True) (·.client.pc = .printed)
          session := by
  refine ⟨_, _, rfl, ?_⟩
  exact exchange_ends .bits64 (zeros false) underWay _ _ (by simp [underWay, Uncut]) rfl rfl

end NetworkTest.EchoSession
