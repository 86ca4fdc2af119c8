import NetworkTest.UploadSession

/-!
The verdict of a session. It compares two counts, and what the client counts
is the file from the offset on; so a complete transfer means that this part of
the file has been put behind what the server had, whatever that was.
-/

namespace NetworkTest.Upload

open CBuffer (Bytes Memory)
open Directory (Files contents)
open IntBytes (Word ByteOrder INT_MAX)
open Channel (Link)
open FileClient (NAMESIZE)
open Machine (Step exec Along)

def busy : FileServer.Pc → Bool
  | .accepting => false
  | .exited => false
  | _ => true

def Event.connects : Event → Bool
  | .connect _ _ => true
  | _ => false

/-- A session that ends with success has stored the whole rest of the file. -/
theorem complete_stored {order : ByteOrder} {origin : Files Bytes UInt8} {request : Request}
    {system : System} {event : FileServer.Event} {server : FileServer.Server}
    {up : Link UInt8} {made : List FileServer.Call}
    (inv : SessionInv order origin request system) (small : request.file.length ≤ INT_MAX)
    (turn : FileServer.Turn order system.server event server made)
    (took : FileServer.takes system.up event = some up) (complete : .complete ∈ made)
    (arrived : NAMESIZE + 4 ≤ up.taken.length) :
    server.files request.key = some (request.old ++ request.payload) := by
  have receiving := inv.receiving
  cases turn with
  | ended result printed here last =>
      simp only [Receiving, here] at receiving
      rcases receiving with ⟨lost, _⟩ | ⟨name, announced, count, length, total, files⟩
      · have still := (lost_served lost took).2
        omega
      · have same : system.server.numtotal = order.decode system.server.totalbytes := by
          by_contra differs
          rcases last with ⟨_, rfl⟩ | ⟨_, rfl⟩ <;>
            simp [FileServer.finish, differs] at complete
        rw [total, announced] at same
        have all := Request.whole_of_count small same
        rw [FileServer.finish, files, Directory.append_same, inv.old,
          List.take_of_length_le all]
  | storedPart block written here part =>
      simp only [Receiving, here] at receiving
      obtain ⟨name, announced, count, length, total, files, joined⟩ := receiving
      have same : system.server.numtotal = order.decode system.server.totalbytes := by
        by_contra differs
        simp [differs] at complete
      rw [total, announced] at same
      have all := Request.whole_of_count small same
      -- the block would be past the end of the payload
      have lengths := congrArg List.length joined
      rw [List.length_append, List.length_take, List.length_take] at lengths
      omega
  | _ => simp at complete

theorem verdict_ends {order : ByteOrder} {server next : FileServer.Server}
    {event : FileServer.Event} {made : List FileServer.Call}
    (turn : FileServer.Turn order server event next made) (complete : .complete ∈ made) :
    busy next.pc = false := by
  cases turn with
  | ended => rfl
  | storedPart => rfl
  | _ => simp at complete

structure VerdictInv (order : ByteOrder) (origin : Files Bytes UInt8) (request : Request)
    (calls : List Call) (system : System) : Prop where
  session : busy system.server.pc = true →
    SessionInv order origin request system ∧ .server .complete ∉ calls
  past : busy system.server.pc = false → .server .complete ∈ calls →
    NAMESIZE + 4 ≤ system.up.taken.length →
      system.server.files request.key = some (request.old ++ request.payload)

theorem busy_iff (pc : FileServer.Pc) : busy pc = true ↔ pc ≠ .accepting ∧ pc ≠ .exited := by
  cases pc <;> simp [busy]

theorem verdict_server {order : ByteOrder} {origin : Files Bytes UInt8} {request : Request}
    {system : System} {calls : List Call} {event : FileServer.Event}
    {server : FileServer.Server} {up : Link UInt8} {made : List FileServer.Call}
    (inv : VerdictInv order origin request calls system)
    (small : request.file.length ≤ INT_MAX) (whole : SendsWhole system (.server event))
    (other : event ≠ .accept)
    (turn : FileServer.Turn order system.server event server made)
    (took : FileServer.takes system.up event = some up) :
    VerdictInv order origin request (calls ++ made.map .server)
      { system with
        server := server
        up := up
        down := FileServer.transmit system.down made } := by
  have printed : Call.server .complete ∈ made.map Call.server → .complete ∈ made := by
    intro member
    obtain ⟨call, found, same⟩ := List.mem_map.mp member
    exact Call.server.inj same ▸ found
  cases state : busy system.server.pc with
  | true =>
      obtain ⟨session, silent⟩ := inv.session state
      constructor
      · intro stays
        refine ⟨session_server session whole other turn took ((busy_iff _).mp stays), ?_⟩
        intro member
        rcases List.mem_append.mp member with old | new
        · exact silent old
        · rw [verdict_ends turn (printed new)] at stays
          cases stays
      · intro _ member arrived
        have new := (List.mem_append.mp member).resolve_left silent
        exact complete_stored session small turn took (printed new) arrived
  | false =>
      cases turn with
      | accepted => exact absurd rfl other
      | acceptFailed here =>
          cases took
          constructor
          · intro stays
            cases stays
          · intro _ member
            rcases List.mem_append.mp member with old | new
            · exact inv.past state old
            · simp at new
      | ended _ _ here => simp [here, busy] at state
      | storedPart _ _ here => simp [here, busy] at state
      | _ => simp_all [busy]

theorem verdict_step {order : ByteOrder} {clientFile : Bytes → Bytes}
    {origin : Files Bytes UInt8} {request : Request} {system next : System}
    {calls made : List Call} {event : Event}
    (inv : VerdictInv order origin request calls system)
    (small : request.file.length ≤ INT_MAX) (whole : SendsWhole system event)
    (one : event.connects = false)
    (turn : Turn order clientFile system event next made) :
    VerdictInv order origin request (calls ++ made) next := by
  cases turn with
  | connected name memory idle => cases one
  | served event server up made other turn took =>
      exact verdict_server inv small whole other turn took
  | conversed event client down made turn took =>
      have silent : Call.server .complete ∉ made.map Call.client := by simp
      constructor
      · intro busy
        obtain ⟨session, quiet⟩ := inv.session busy
        exact ⟨session_client session whole turn took,
          fun member => (List.mem_append.mp member).elim quiet silent⟩
      · intro idle member arrived
        rw [FileClient.transmit_taken] at arrived
        exact inv.past idle ((List.mem_append.mp member).resolve_right silent) arrived
  | cut up down =>
      rw [List.append_nil]
      exact ⟨fun busy => ⟨session_cut (inv.session busy).1 up down, (inv.session busy).2⟩,
        inv.past⟩

/-- If the server reports a complete transfer, and the whole size had come,
then the stored file is the client's exactly if what the server had before was
a front part of it. The two hosts have one byte order. -/
theorem complete_stored_iff (order : ByteOrder) (clientFile : Bytes → Bytes)
    (system last : System) (name : Bytes) (memory : Memory 4) (events : List Event)
    (calls : List Call) (small : (clientFile name).length ≤ INT_MAX)
    (one : ∀ event ∈ events, event.connects = false)
    (guarded : Along (step order clientFile) SendsWhole system (.connect name memory :: events))
    (ran : exec (step order clientFile) system (.connect name memory :: events) =
      some (last, calls))
    (complete : .server .complete ∈ calls)
    (arrived : NAMESIZE + 4 ≤ last.up.taken.length) :
    ∃ stored, last.server.files (name.take NAMESIZE) = some stored ∧
      (stored = clientFile name ↔
        contents system.server.files (name.take NAMESIZE) <+: clientFile name) := by
  obtain ⟨next, made, later, taken, tail, rfl⟩ := (Machine.exec_cons_iff ..).mp ran
  have follows := Machine.along_of_forall next events one (guarded.2 next made taken)
  cases turn_of_step taken with
  | connected _ _ idle =>
      have started : VerdictInv order system.server.files
          (request system.server.files name (clientFile name)) []
          (session system.server name (clientFile name) memory) := by
        constructor
        · exact fun _ => ⟨session_start order _ _ _ guarded.1, List.not_mem_nil⟩
        · exact fun idle => nomatch idle
      have inv := Machine.exec_invariant_along
        (VerdictInv order system.server.files (request system.server.files name (clientFile name)))
        (fun _ _ _ _ _ inv met taken =>
          verdict_step inv small met.1 met.2 (turn_of_step taken))
        started follows tail
      -- the verdict has been printed, so the session is over
      refine ⟨_, inv.past ?_ complete arrived, Request.resumed_iff small⟩
      cases state : busy last.server.pc with
      | false => rfl
      | true => exact absurd complete (inv.session state).2

/-! A server that has one byte under the name "a", and a client with three. -/

def oneByte (byte : UInt8) : System :=
  start (fun name => if name = [97] then some [byte] else none)
    (.zeros _) (.zeros _)

def twoBytes : List Event :=
  [.client (.openRead true), .client (.sendName (some 256)),
    .server (.recvName (some (CBuffer.strncpy [97] 256))), .server (.openRead true),
    .server (.sendOffset (some 4)), .client (.recvOffset (some [1, 0, 0, 0])),
    .client (.sendSize (some 4)), .client .fread, .client (.sendBlock (some 2)), .client .fread,
    .server (.recvSize (some [2, 0, 0, 0])), .server (.openAppend true),
    .server (.recvData (some [2, 3])), .server (.fwrite 2), .server (.recvData (some []))]

theorem complete_stored_iff_twoBytes :
    ∃ last calls,
      exec (step IntBytes.littleEndian fun _ => [1, 2, 3]) (oneByte 1)
          (.connect [97] (.zeros 4) :: twoBytes) = some (last, calls) ∧
        last.server.files [97] = some [1, 2, 3] := by
  have runs : (exec (step IntBytes.littleEndian fun _ => [1, 2, 3]) (oneByte 1)
      (.connect [97] (.zeros 4) :: twoBytes)).isSome = true := by decide +kernel
  have shows : (exec (step IntBytes.littleEndian fun _ => [1, 2, 3]) (oneByte 1)
      (.connect [97] (.zeros 4) :: twoBytes)).all (fun run =>
        Call.server .complete ∈ run.2 && decide (NAMESIZE + 4 ≤ run.1.up.taken.length)) =
          true := by decide +kernel
  obtain ⟨last, calls, ran⟩ := Machine.exec_of_isSome runs
  rw [ran] at shows
  simp only [Option.all_some, Bool.and_eq_true, decide_eq_true_eq] at shows
  obtain ⟨stored, found, same⟩ := complete_stored_iff IntBytes.littleEndian (fun _ => [1, 2, 3])
    (oneByte 1) last [97] (.zeros 4) twoBytes calls (by decide) (by decide)
    ((Machine.misses_zero_iff _ _).mp (by decide +kernel)) ran shows.1 shows.2
  exact ⟨last, calls, ran, found.trans (congrArg some (same.mpr ⟨[2, 3], rfl⟩))⟩

/-- The byte on the server is another one: the same session is reported
complete. -/
theorem other_byte_complete :
    ¬ ∀ (order : ByteOrder) (clientFile : Bytes → Bytes) (system last : System) (name : Bytes)
      (memory : Memory 4) (events : List Event) (calls : List Call),
      (clientFile name).length ≤ INT_MAX → name.length ≤ 255 →
        (∀ event ∈ events, event.connects = false) →
        Along (step order clientFile) SendsWhole system (.connect name memory :: events) →
        exec (step order clientFile) system (.connect name memory :: events) =
          some (last, calls) →
        .server .complete ∈ calls → last.server.files name = some (clientFile name) := by
  intro all
  have runs : (exec (step IntBytes.littleEndian fun _ => [1, 2, 3]) (oneByte 9)
      (.connect [97] (.zeros 4) :: twoBytes)).isSome = true := by decide +kernel
  have shows : (exec (step IntBytes.littleEndian fun _ => [1, 2, 3]) (oneByte 9)
      (.connect [97] (.zeros 4) :: twoBytes)).all (fun run =>
        Call.server .complete ∈ run.2 && run.1.server.files [97] = some [9, 2, 3]) =
          true := by decide +kernel
  obtain ⟨last, calls, ran⟩ := Machine.exec_of_isSome runs
  rw [ran] at shows
  simp only [Option.all_some, Bool.and_eq_true, decide_eq_true_eq] at shows
  have stored := all IntBytes.littleEndian (fun _ => [1, 2, 3]) (oneByte 9) last [97]
    (.zeros 4) twoBytes calls (by decide) (by decide) (by decide)
    ((Machine.misses_zero_iff _ _).mp (by decide +kernel)) ran shows.1
  rw [shows.2] at stored
  cases stored

end NetworkTest.Upload
