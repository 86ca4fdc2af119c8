import NetworkTest.WholeClient
import NetworkTest.WholeServer

/-!
Uploads with the programs of tue/file_transfer/hw1: one server, and one client
after the other, each on a connection of its own that can be cut at any point.
While the connection holds, what the server has taken is the name and as much
of the file as it has written.
-/

namespace NetworkTest.WholeUpload

open CBuffer (Bytes Memory cstring strncpy)
open Directory (Files)
open IntBytes (INT_MAX)
open Channel (Link)
open WholeClient (Client NAMESIZE)
open WholeServer (Server)
open Machine (Step exec Along)

structure System where
  server : Server
  client : Client
  up : Link UInt8

inductive Event where
  | connect (name : Bytes)
  | server (event : WholeServer.Event)
  | client (event : WholeClient.Event)
  | cut (kept : Nat)
  deriving DecidableEq

inductive Call where
  | server (call : WholeServer.Call)
  | client (call : WholeClient.Call)
  deriving DecidableEq

/-- `clientFile` gives the client's file for each name. -/
def step (clientFile : Bytes → Bytes) : Step System Event Call := fun system event =>
  match event with
  | .connect name =>
      match WholeServer.step system.server .accept with
      | none => none
      | some (server, made) =>
          some ({
            server := server
            client := WholeClient.start name (clientFile name)
            up := .fresh }, made.map .server)
  | .server event =>
      if event = .accept then none
      else
        match WholeServer.serve (system.server, system.up) event with
        | none => none
        | some ((server, up), made) =>
            some ({ system with server := server, up := up }, made.map .server)
  | .client event =>
      match WholeClient.step system.client event with
      | none => none
      | some (client, made) =>
          some ({ system with
            client := client
            up := WholeClient.transmit system.up made }, made.map .client)
  | .cut kept => some ({ system with up := system.up.cut kept }, [])

def start (files : Files Bytes UInt8) (filename : Memory WholeServer.NAMESIZE) : System where
  server := { pc := .accepting, files := files, filename := filename, totalbytes := 0 }
  client := { WholeClient.start [] [] with pc := .finished }
  up := Link.fresh.cut 0

def session (server : Server) (name file : Bytes) : System where
  server := { server with pc := .recvName }
  client := WholeClient.start name file
  up := .fresh

inductive Turn (clientFile : Bytes → Bytes) (system : System) :
    Event → System → List Call → Prop where
  | connected (name : Bytes) (idle : system.server.pc = .accepting) :
      Turn clientFile system (.connect name) (session system.server name (clientFile name)) []
  | served (event : WholeServer.Event) (server : Server) (up : Link UInt8)
      (made : List WholeServer.Call) (other : event ≠ .accept)
      (turn : WholeServer.Turn system.server event server made)
      (took : WholeServer.takes system.up event = some up) :
      Turn clientFile system (.server event) { system with server := server, up := up }
        (made.map .server)
  | uploaded (event : WholeClient.Event) (client : Client) (made : List WholeClient.Call)
      (turn : WholeClient.Turn system.client event client made) :
      Turn clientFile system (.client event)
        { system with client := client, up := WholeClient.transmit system.up made }
        (made.map .client)
  | cut (kept : Nat) :
      Turn clientFile system (.cut kept) { system with up := system.up.cut kept } []

theorem turn_of_step {clientFile : Bytes → Bytes} {system next : System} {event : Event}
    {made : List Call} (taken : step clientFile system event = some (next, made)) :
    Turn clientFile system event next made := by
  unfold step at taken
  cases event with
  | connect name =>
      simp only at taken
      cases stepped : WholeServer.step system.server .accept with
      | none => simp [stepped] at taken
      | some pair =>
          obtain ⟨server, accepted⟩ := pair
          simp only [stepped, Option.some.injEq, Prod.mk.injEq] at taken
          obtain ⟨rfl, rfl⟩ := taken
          cases WholeServer.turn_of_step stepped with
          | accepted idle => exact .connected name idle
  | server event =>
      simp only [Option.ite_none_left_eq_some] at taken
      obtain ⟨other, taken⟩ := taken
      cases stepped : WholeServer.serve (system.server, system.up) event with
      | none => simp [stepped] at taken
      | some pair =>
          obtain ⟨⟨server, up⟩, calls⟩ := pair
          simp only [stepped, Option.some.injEq, Prod.mk.injEq] at taken
          obtain ⟨rfl, rfl⟩ := taken
          obtain ⟨turn, took⟩ := WholeServer.serve_eq_some stepped
          exact .served event server up calls other turn took
  | client event =>
      simp only at taken
      cases stepped : WholeClient.step system.client event with
      | none => simp [stepped] at taken
      | some pair =>
          obtain ⟨client, calls⟩ := pair
          simp only [stepped, Option.some.injEq, Prod.mk.injEq] at taken
          obtain ⟨rfl, rfl⟩ := taken
          exact .uploaded event client calls (WholeClient.turn_of_step stepped)
  | cut kept =>
      simp only [Option.some.injEq, Prod.mk.injEq] at taken
      obtain ⟨rfl, rfl⟩ := taken
      exact .cut kept

/-- A send takes all its bytes unless the connection has been cut; the client
has its file and its memory, and the server's file operations succeed. Only
the empty name cannot be opened. -/
def UploadOk (system : System) : Event → Prop
  | .client (.openRead ok) => ok = true
  | .client (.malloc ok) => ok = true
  | .client (.fread count) => count = system.client.readable
  | .client (.sendName result) => system.up.broken = true ∨ result = some NAMESIZE
  | .client (.sendFile result) =>
      system.up.broken = true ∨ result = some system.client.block.length
  | .server (.openWrite ok) => ok = true ∨ system.server.name = []
  | .server (.fwrite written) => written = system.server.block.length
  | _ => True

instance (system : System) : (event : Event) → Decidable (UploadOk system event)
  | .client (.openRead ok) => inferInstanceAs (Decidable (ok = true))
  | .client (.malloc ok) => inferInstanceAs (Decidable (ok = true))
  | .client (.fread count) => inferInstanceAs (Decidable (count = system.client.readable))
  | .client (.sendName result) =>
      inferInstanceAs (Decidable (system.up.broken = true ∨ result = some NAMESIZE))
  | .client (.sendFile result) =>
      inferInstanceAs
        (Decidable (system.up.broken = true ∨ result = some system.client.block.length))
  | .server (.openWrite ok) => inferInstanceAs (Decidable (ok = true ∨ system.server.name = []))
  | .server (.fwrite written) =>
      inferInstanceAs (Decidable (written = system.server.block.length))
  | .server .accept => isTrue trivial
  | .server .acceptFails => isTrue trivial
  | .server (.recvName _) => isTrue trivial
  | .server (.recvData _) => isTrue trivial
  | .connect _ => isTrue trivial
  | .cut _ => isTrue trivial

def Event.connects : Event → Bool
  | .connect _ => true
  | _ => false

def stream (name file : Bytes) : Bytes := strncpy name NAMESIZE ++ file

/-- Where the client is in the stream. -/
def Sending (name file : Bytes) (client : Client) (up : Link UInt8) : Prop :=
  match client.pc with
  | .openRead => up.sent = [] ∧ up.closed = false
  | .sendName => up.sent = [] ∧ up.closed = false
  | .allocating =>
      up.sent = strncpy name NAMESIZE ∧ up.closed = false ∧
        client.length = BitVec.ofNat 32 file.length
  | .reading =>
      up.sent = strncpy name NAMESIZE ∧ up.closed = false ∧
        client.length = BitVec.ofNat 32 file.length
  | .sending block => up.sent = strncpy name NAMESIZE ∧ up.closed = false ∧ block = file
  | .finished => up.sent = stream name file

/-- The files when `data` has been written. -/
def written (origin : Files Bytes UInt8) (name data : Bytes) : Files Bytes UInt8 :=
  Directory.append (Directory.truncate origin name) name data

/-- What the server has made of what it has taken; `origin` are the files at
the start of the session. -/
def Receiving (origin : Files Bytes UInt8) (name file : Bytes) (server : Server)
    (up : Link UInt8) : Prop :=
  match server.pc with
  | .recvName => server.files = origin ∧ up.taken = []
  | .openWrite =>
      server.files = origin ∧ server.name = name ∧ up.taken = strncpy name NAMESIZE
  | .recvData =>
      server.name = name ∧ ∃ data, up.taken = stream name data ∧
        server.files = written origin name data
  | .writing block =>
      server.name = name ∧ ∃ data, up.taken = stream name data ++ block ∧
        server.files = written origin name data
  | .accepting => server.files = written origin name file
  | .exited => server.files = written origin name file

structure SessionInv (origin : Files Bytes UInt8) (name file : Bytes) (system : System) :
    Prop where
  asked : system.client.name = name
  given : system.client.file = file
  sending : Sending name file system.client system.up
  receiving : Receiving origin name file system.server system.up

theorem sending_client {origin : Files Bytes UInt8} {name file : Bytes} {system : System}
    {event : WholeClient.Event} {client : Client} {made : List WholeClient.Call}
    (inv : SessionInv origin name file system) (small : file.length ≤ INT_MAX)
    (held : system.up.broken = false) (ok : UploadOk system (.client event))
    (turn : WholeClient.Turn system.client event client made) :
    Sending name file client (WholeClient.transmit system.up made) := by
  have sending := inv.sending
  have value : (BitVec.ofNat 32 file.length).toNat = file.length := by
    rw [INT_MAX] at small
    rw [BitVec.toNat_ofNat, Nat.mod_eq_of_lt (by omega)]
  cases turn with
  | opened here => simpa [Sending, here, WholeClient.transmit] using sending
  | failed event how =>
      rcases how with ⟨_, rfl⟩ | ⟨_, rfl⟩ | ⟨_, rfl⟩ | ⟨block, _, rfl⟩
      · cases ok
      · simp [UploadOk, held] at ok
      · cases ok
      · simp [UploadOk, held] at ok
  | named count here short =>
      simp only [Sending, here] at sending
      obtain rfl : count = NAMESIZE := by simpa [UploadOk, held] using ok
      have all : (strncpy system.client.name NAMESIZE).take NAMESIZE = strncpy name NAMESIZE := by
        rw [inv.asked, List.take_of_length_le (Nat.le_of_eq (CBuffer.strncpy_length ..))]
      refine ⟨?_, ?_, by rw [inv.given]⟩
      · rw [WholeClient.transmit_send, all, Link.send_sent held, sending.1, List.nil_append]
      · rw [WholeClient.transmit_send, Link.send_closed, sending.2]
  | allocated here positive => simpa [Sending, here, WholeClient.transmit] using sending
  | loaded count here inside all =>
      simp only [Sending, here] at sending
      obtain ⟨sent, opened, length⟩ := sending
      have whole : count = system.client.readable := ok
      have count_eq : count = file.length := by
        rw [whole, Client.readable, length, inv.given, value, Nat.min_self]
      refine ⟨sent, opened, ?_⟩
      rw [count_eq, inv.given, List.take_length]
  | unread count here inside part =>
      simp only [Sending, here] at sending
      have whole : count = system.client.readable := ok
      rw [whole, Client.readable, sending.2.2, inv.given, value, Nat.min_self] at part
      exact absurd rfl part
  | sent block count here short =>
      simp only [Sending, here] at sending
      obtain ⟨sent, _, same⟩ := sending
      obtain rfl : count = block.length := by
        simpa [UploadOk, held, Client.block, here] using ok
      change (system.up.send (block.take block.length)).sent = stream name file
      rw [Link.send_sent held, List.take_length, sent, same, stream]

theorem stream_sent {origin : Files Bytes UInt8} {name file : Bytes} {system : System}
    (inv : SessionInv origin name file system) (held : system.up.broken = false)
    (ended : system.up.closed = true ∨ system.up.broken = true) :
    system.up.sent = stream name file := by
  have closed : system.up.closed = true := ended.resolve_right (by simp [held])
  have sending := inv.sending
  unfold Sending at sending
  split at sending <;> simp_all

theorem sending_ordered {name file : Bytes} {client : Client} {up : Link UInt8}
    (sending : Sending name file client up) : up.sent <+: stream name file := by
  have front : strncpy name NAMESIZE <+: stream name file := List.prefix_append ..
  unfold Sending at sending
  split at sending
  · exact sending.1 ▸ List.nil_prefix
  · exact sending.1 ▸ List.nil_prefix
  · exact sending.1 ▸ front
  · exact sending.1 ▸ front
  · exact sending.1 ▸ front
  · exact ⟨[], by rw [List.append_nil, sending]⟩

theorem name_whole {origin : Files Bytes UInt8} {name file data : Bytes} {system : System}
    {up : Link UInt8} (inv : SessionInv origin name file system)
    (held : system.up.broken = false) (first : system.up.taken = [])
    (got : system.up.recvAll NAMESIZE (some data) = some up) :
    data = strncpy name NAMESIZE := by
  have field : (strncpy name NAMESIZE).length = NAMESIZE := CBuffer.strncpy_length ..
  have taken : up.taken = data := by rw [Link.recvAll_taken got, first, List.nil_append]
  rcases Nat.lt_or_eq_of_le (Link.recvAll_length got) with short | full
  · -- the stream would have ended within its first 256 bytes
    obtain ⟨empty, ended⟩ := Link.recvAll_short got short
    obtain ⟨sent, _, broken⟩ := Link.recvAll_sent got
    have whole := up.whole (broken.trans held)
    rw [taken, empty, List.append_nil, sent, stream_sent inv held ended] at whole
    have length := congrArg List.length whole
    rw [stream, List.length_append, field] at length
    omega
  · have piece := Link.recvAll_piece (sending_ordered inv.sending) got
    rw [first, List.length_nil, List.drop_zero, stream] at piece
    have front : data <+: strncpy name NAMESIZE :=
      List.prefix_of_prefix_length_le piece (List.prefix_append ..) (by rw [field, full])
    exact front.eq_of_length (by rw [field, full])

theorem name_stored {server : Server} {name : Bytes} (nonzero : ∀ byte ∈ name, byte ≠ 0)
    (short : name.length ≤ 255) (fits : (strncpy name NAMESIZE).length ≤ WholeServer.NAMESIZE) :
    cstring (server.filename.store (strncpy name NAMESIZE) fits).val = name := by
  have field : (strncpy name NAMESIZE).length = NAMESIZE := CBuffer.strncpy_length ..
  have whole := CBuffer.store_whole server.filename ⟨strncpy name NAMESIZE, field⟩
  rw [whole]
  have all := CBuffer.cstring_strncpy_take nonzero (Nat.le_refl NAMESIZE)
  rw [List.take_of_length_le (Nat.le_of_eq field)] at all
  rw [all]
  exact List.take_of_length_le (Nat.le_succ_of_le short)

theorem receiving_server {origin : Files Bytes UInt8} {name file : Bytes} {system : System}
    {event : WholeServer.Event} {server : Server} {up : Link UInt8}
    {made : List WholeServer.Call} (inv : SessionInv origin name file system)
    (named : name ≠ [] ∧ ∀ byte ∈ name, byte ≠ 0) (fits : name.length ≤ 255)
    (held : system.up.broken = false) (ok : UploadOk system (.server event))
    (other : event ≠ .accept) (turn : WholeServer.Turn system.server event server made)
    (took : WholeServer.takes system.up event = some up) :
    Receiving origin name file server up := by
  have receiving := inv.receiving
  cases turn with
  | accepted here => exact absurd rfl other
  | acceptFailed here =>
      simp only [Receiving, here] at receiving
      exact receiving
  | nameless result here nothing =>
      simp only [Receiving, here] at receiving
      rcases nothing with rfl | rfl
      · have got : system.up.recvAll NAMESIZE none = some up := took
        exact absurd got (Link.recvAll_held held)
      · have field := name_whole inv held receiving.2 took
        have length := congrArg List.length field
        rw [CBuffer.strncpy_length] at length
        cases length
  | named data here more inside =>
      simp only [Receiving, here] at receiving
      obtain ⟨files, first⟩ := receiving
      have got : system.up.recvAll NAMESIZE (some data) = some up := took
      obtain rfl := name_whole inv held first got
      refine ⟨files, name_stored named.2 fits inside, ?_⟩
      rw [Link.recvAll_taken got, first, List.nil_append]
  | unopened here =>
      simp only [Receiving, here] at receiving
      have empty : system.server.name = [] := ok.resolve_left (by simp)
      exact absurd (receiving.2.1.symm.trans empty) named.1
  | opened here known =>
      simp only [Receiving, here] at receiving
      obtain ⟨files, same, taken⟩ := receiving
      cases took
      refine ⟨same, [], ?_, ?_⟩
      · rw [taken, stream, List.append_nil]
      · have kept : Directory.truncate origin name name = some [] := Function.update_self ..
        rw [files, written, same, Directory.append_nil kept]
  | dataFailed here =>
      have got : system.up.read WholeServer.BUFSIZE none = some up := took
      exact absurd got (Link.read_held held)
  | ended here =>
      simp only [Receiving, here] at receiving
      obtain ⟨_, data, taken, files⟩ := receiving
      have got : system.up.read WholeServer.BUFSIZE (some []) = some up := took
      obtain ⟨_, _, _, last⟩ := Link.read_data got
      obtain ⟨empty, ended⟩ := last rfl
      -- what was taken is all that was sent, so what was written is the whole file
      have whole := system.up.whole held
      rw [empty, List.append_nil, taken, stream_sent inv held ended] at whole
      rw [Receiving, files, List.append_cancel_left whole]
  | received block here more short =>
      simp only [Receiving, here] at receiving
      obtain ⟨same, data, taken, files⟩ := receiving
      have got : system.up.read WholeServer.BUFSIZE (some block) = some up := took
      exact ⟨same, data, by rw [Link.read_taken got, taken], files⟩
  | stored block here =>
      simp only [Receiving, here] at receiving
      obtain ⟨same, data, taken, files⟩ := receiving
      cases took
      refine ⟨same, data ++ block, ?_, ?_⟩
      · rw [taken, stream, stream, List.append_assoc]
      · rw [files, same, written, written, Directory.append_append]
  | storedPart block count here part =>
      have whole : count = system.server.block.length := ok
      rw [Server.block, here] at whole
      simp only at whole
      omega

theorem session_step {clientFile : Bytes → Bytes} {origin : Files Bytes UInt8}
    {name file : Bytes} {system next : System} {event : Event} {made : List Call}
    (inv : SessionInv origin name file system)
    (named : name ≠ [] ∧ ∀ byte ∈ name, byte ≠ 0) (fits : name.length ≤ 255)
    (small : file.length ≤ INT_MAX) (held : next.up.broken = false)
    (ok : UploadOk system event) (one : event.connects = false)
    (turn : Turn clientFile system event next made) : SessionInv origin name file next := by
  cases turn with
  | connected name idle => cases one
  | served event server up made other turn took =>
      obtain ⟨sent, closed, broken⟩ := WholeServer.takes_keeps took
      have holds : system.up.broken = false := broken.symm.trans held
      constructor
      case asked => exact inv.asked
      case given => exact inv.given
      case sending =>
          have sending := inv.sending
          unfold Sending at sending ⊢
          simpa only [sent, closed] using sending
      case receiving => exact receiving_server inv named fits holds ok other turn took
  | uploaded event client made turn =>
      obtain ⟨asked, given⟩ := WholeClient.turn_keeps turn
      have holds : system.up.broken = false := (WholeClient.transmit_broken ..).symm.trans held
      constructor
      case asked => exact asked.trans inv.asked
      case given => exact given.trans inv.given
      case sending => exact sending_client inv small holds ok turn
      case receiving =>
          have receiving := inv.receiving
          unfold Receiving at receiving ⊢
          simpa only [WholeClient.transmit_taken] using receiving
  | cut kept => cases held

theorem session_start {server : Server} (name file : Bytes) :
    SessionInv server.files name file (session server name file) := by
  constructor
  case sending => exact ⟨rfl, rfl⟩
  case receiving => exact ⟨rfl, rfl⟩
  all_goals rfl

theorem broken_stays {clientFile : Bytes → Bytes} {system next : System} {event : Event}
    {made : List Call} (turn : Turn clientFile system event next made)
    (one : event.connects = false) (held : next.up.broken = false) :
    system.up.broken = false := by
  cases turn with
  | connected name idle => cases one
  | served event server up made other turn took =>
      exact (WholeServer.takes_keeps took).2.2.symm.trans held
  | uploaded event client made turn => exact (WholeClient.transmit_broken ..).symm.trans held
  | cut kept => cases held

/-- One upload from the first step to the server's return to `accept`, with a
connection that was not cut. -/
structure Completes (clientFile : Bytes → Bytes) (name : Bytes) (system last : System)
    (events : List Event) (calls : List Call) : Prop where
  one : ∀ event ∈ events, event.connects = false
  guarded : Along (step clientFile) UploadOk system (.connect name :: events)
  ran : exec (step clientFile) system (.connect name :: events) = some (last, calls)
  idle : last.server.pc = .accepting
  held : last.up.broken = false

/-- A complete upload writes the client's file. -/
theorem completes_written {clientFile : Bytes → Bytes} {name : Bytes} {system last : System}
    {events : List Event} {calls : List Call}
    (complete : Completes clientFile name system last events calls)
    (named : name ≠ [] ∧ ∀ byte ∈ name, byte ≠ 0) (fits : name.length ≤ 255)
    (small : (clientFile name).length ≤ INT_MAX) :
    last.server.files = written system.server.files name (clientFile name) := by
  obtain ⟨next, made, later, taken, tail, rfl⟩ := (Machine.exec_cons_iff ..).mp complete.ran
  have follows := Machine.along_of_forall next events complete.one
    (complete.guarded.2 next made taken)
  cases turn_of_step taken with
  | connected _ idle =>
      have inv := Machine.exec_invariant_along
        (fun _ state => state.up.broken = false →
          SessionInv system.server.files name (clientFile name) state)
        (fun _ _ _ _ _ inv met taken held =>
          have turn := turn_of_step taken
          session_step (inv (broken_stays turn met.2 held)) named fits small held met.1 met.2 turn)
        (fun _ => session_start name (clientFile name)) follows tail
      have receiving := (inv complete.held).receiving
      simpa only [Receiving, complete.idle] using receiving

end NetworkTest.WholeUpload
