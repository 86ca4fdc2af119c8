import NetworkTest.UploadVerdict

/-!
Resumed uploads. If the server starts with front parts of the clients' files,
then these are all it ever has: a cut can only leave a shorter part, and the
next session takes up where the stored part ends.
-/

namespace NetworkTest.Upload

open CBuffer (Bytes Memory)
open Directory (Files contents)
open IntBytes (Word ByteOrder INT_MAX)
open Channel (Link)
open FileClient (NAMESIZE)
open Machine (Step exec Along)

/-- The server's file operations succeed; only the empty name cannot be
opened. Names have at most 255 bytes. -/
def FilesOk (system : System) : Event → Prop
  | .connect name _ => name.length ≤ 255
  | .server (.openRead ok) => ok = true
  | .server (.openAppend ok) => ok = true ∨ system.server.name = []
  | .server (.fwrite written) => written = system.server.block.length
  | _ => True

def UploadOk (system : System) (event : Event) : Prop :=
  SendsWhole system event ∧ FilesOk system event

instance (system : System) : (event : Event) → Decidable (FilesOk system event)
  | .connect name _ => inferInstanceAs (Decidable (name.length ≤ 255))
  | .server (.openRead ok) => inferInstanceAs (Decidable (ok = true))
  | .server (.openAppend ok) =>
      inferInstanceAs (Decidable (ok = true ∨ system.server.name = []))
  | .server (.fwrite written) =>
      inferInstanceAs (Decidable (written = system.server.block.length))
  | .server .accept => isTrue trivial
  | .server .acceptFails => isTrue trivial
  | .server (.recvName _) => isTrue trivial
  | .server (.sendOffset _) => isTrue trivial
  | .server (.recvSize _) => isTrue trivial
  | .server (.recvData _) => isTrue trivial
  | .client _ => isTrue trivial
  | .cut _ _ => isTrue trivial

instance (system : System) (event : Event) : Decidable (UploadOk system event) :=
  inferInstanceAs (Decidable (_ ∧ _))

/-- Every file there is, is a front part of the client's. -/
def Fronts (clientFile : Bytes → Bytes) (files : Files Bytes UInt8) : Prop :=
  ∀ name content, files name = some content → content <+: clientFile name

theorem fronts_contents {clientFile : Bytes → Bytes} {files : Files Bytes UInt8}
    (fronts : Fronts clientFile files) (name : Bytes) :
    contents files name <+: clientFile name := by
  cases found : files name with
  | none =>
      rw [contents, found]
      exact List.nil_prefix
  | some content =>
      rw [contents, found]
      exact fronts name content found

theorem fronts_append {clientFile : Bytes → Bytes} {files : Files Bytes UInt8} {name data : Bytes}
    (fronts : Fronts clientFile files) (front : contents files name ++ data <+: clientFile name) :
    Fronts clientFile (Directory.append files name data) := by
  intro other content found
  by_cases same : other = name
  · subst same
    rw [Directory.append_same] at found
    exact Option.some.inj found ▸ front
  · rw [Directory.append_other data same] at found
    exact fronts other content found

/-- The request is for the client's file, under a name that fits the field. -/
structure Honest (clientFile : Bytes → Bytes) (origin : Files Bytes UInt8)
    (request : Request) : Prop where
  file : request.file = clientFile request.name
  fits : request.name.length ≤ 255
  fronts : Fronts clientFile origin

theorem Honest.key {clientFile : Bytes → Bytes} {origin : Files Bytes UInt8} {request : Request}
    (honest : Honest clientFile origin request) : request.key = request.name :=
  List.take_of_length_le (Nat.le_succ_of_le honest.fits)

theorem Honest.whole {clientFile : Bytes → Bytes} {origin : Files Bytes UInt8} {request : Request}
    (honest : Honest clientFile origin request) (old : request.old = contents origin request.key)
    (small : request.file.length ≤ INT_MAX) : request.old ++ request.payload = request.file := by
  apply (Request.resumed_iff small).mpr
  rw [old, honest.key, honest.file]
  exact fronts_contents honest.fronts request.name

theorem receiving_fronts {order : ByteOrder} {clientFile : Bytes → Bytes}
    {origin : Files Bytes UInt8} {request : Request} {server : FileServer.Server}
    {up : Link UInt8} (honest : Honest clientFile origin request)
    (old : request.old = contents origin request.key) (small : request.file.length ≤ INT_MAX)
    (receiving : Receiving order origin request server up) : Fronts clientFile server.files := by
  have rest : ∀ count, contents origin request.key ++ request.payload.take count <+:
      clientFile request.key := by
    intro count
    rw [← old, honest.key, ← honest.file, ← honest.whole old small]
    exact (List.prefix_append_right_inj _).mpr (List.take_prefix ..)
  unfold Receiving at receiving
  split at receiving
  · cases receiving
  · cases receiving
  · exact receiving.1 ▸ honest.fronts
  · exact receiving.1 ▸ honest.fronts
  · exact receiving.1 ▸ honest.fronts
  · exact receiving.1 ▸ honest.fronts
  · exact receiving.1 ▸ honest.fronts
  · rcases receiving with ⟨_, name, files⟩ | ⟨_, _, count, _, _, files⟩
    · rw [files]
      apply fronts_append honest.fronts
      rw [List.append_nil]
      exact fronts_contents honest.fronts name
    · rw [files]
      exact fronts_append honest.fronts (rest count)
  · obtain ⟨_, _, count, _, _, files, _⟩ := receiving
    rw [files]
    exact fronts_append honest.fronts (rest count)

structure UploadInv (order : ByteOrder) (clientFile : Bytes → Bytes) (system : System) :
    Prop where
  fronts : Fronts clientFile system.server.files
  session : busy system.server.pc = true → ∃ origin request,
    SessionInv order origin request system ∧ Honest clientFile origin request
  past : system.server.pc = .accepting → system.up.broken = false →
    system.server.files system.client.name = some (clientFile system.client.name)

/-- A session that ends without a cut has put the whole rest of the file behind
what was there. -/
theorem over_files {order : ByteOrder} {origin : Files Bytes UInt8} {request : Request}
    {system : System} {event : FileServer.Event} {server : FileServer.Server} {up : Link UInt8}
    {made : List FileServer.Call} (inv : SessionInv order origin request system)
    (ok : UploadOk system (.server event))
    (turn : FileServer.Turn order system.server event server made)
    (took : FileServer.takes system.up event = some up)
    (idle : server.pc = .accepting) (held : up.broken = false) :
    server.files = Directory.append origin request.key request.payload := by
  obtain ⟨sends, files⟩ := ok
  have receiving := inv.receiving
  have holds : system.up.broken = false := (FileServer.takes_keeps took).2.2.symm.trans held
  have refused : ∀ count, system.up.recvAll count none ≠ some up :=
    fun _ => Link.recvAll_held holds
  have found : ¬ Lost system.up := by
    intro lost
    rw [lost.1.1] at holds
    cases holds
  cases turn with
  | nameFailed here => exact absurd took (refused FileServer.NAMESIZE)
  | unreadable here => cases files
  | offsetFailed here => simp [SendsWhole, holds] at sends
  | sizeFailed here => exact absurd took (refused 4)
  | unopened here =>
      simp only [Receiving, here] at receiving
      have name := (receiving.2.resolve_left found).1
      have empty : system.server.name = [] := files.resolve_left (by simp)
      exact absurd (name.symm.trans empty) (key_ne_nil inv.named.1)
  | storedPart block written here part =>
      have whole : written = system.server.block.length := files
      rw [FileServer.Server.block, here] at whole
      simp only at whole
      omega
  | ended result printed here last =>
      simp only [Receiving, here] at receiving
      obtain ⟨name, announced, count, length, total, stored⟩ :=
        receiving.resolve_left fun lost => found lost.1
      rcases last with ⟨rfl, _⟩ | ⟨rfl, _⟩
      case inr => exact absurd took (refused FileServer.BUFSIZE)
      case inl =>
          have got : system.up.recvAll FileServer.BUFSIZE (some []) = some up := took
          have all := stream_sent inv holds (Link.recvAll_short got (by decide)).2
          have none : system.up.arriving = [] := by
            have taken := (Link.recvAll_data got).2.1
            simpa [FileServer.BUFSIZE] using taken.symm
          have whole := congrArg List.length (system.up.whole holds)
          rw [none, List.append_nil, all, length, Request.stream, List.length_append,
            Request.length_header] at whole
          rw [FileServer.finish, stored, List.take_of_length_le (by omega)]
  | named data here fits =>
      simp only at idle
      split at idle <;> cases idle
  | _ => cases idle

theorem over_server {order : ByteOrder} {clientFile : Bytes → Bytes}
    {origin : Files Bytes UInt8} {request : Request} {system : System}
    {event : FileServer.Event} {server : FileServer.Server} {up : Link UInt8}
    {made : List FileServer.Call} (inv : SessionInv order origin request system)
    (honest : Honest clientFile origin request) (small : request.file.length ≤ INT_MAX)
    (ok : UploadOk system (.server event))
    (turn : FileServer.Turn order system.server event server made)
    (took : FileServer.takes system.up event = some up)
    (idle : server.pc = .accepting) (held : up.broken = false) :
    server.files request.name = some (clientFile request.name) := by
  rw [over_files inv ok turn took idle held, ← honest.key, Directory.append_same, ← inv.old,
    honest.whole inv.old small, honest.file, honest.key]

theorem last_files {order : ByteOrder} {system : System} {event : FileServer.Event}
    {server : FileServer.Server} {made : List FileServer.Call}
    (ok : FilesOk system (.server event))
    (turn : FileServer.Turn order system.server event server made)
    (idle : busy server.pc = false) : server.files = system.server.files := by
  cases turn with
  | named => rfl
  | opened => cases idle
  | stored => cases idle
  | storedPart block written here part =>
      have whole : written = system.server.block.length := ok
      rw [FileServer.Server.block, here] at whole
      simp only at whole
      omega
  | _ => rfl

theorem upload_server {order : ByteOrder} {clientFile : Bytes → Bytes} {system : System}
    {event : FileServer.Event} {server : FileServer.Server} {up : Link UInt8}
    {made : List FileServer.Call} (inv : UploadInv order clientFile system)
    (small : ∀ name, (clientFile name).length ≤ INT_MAX) (ok : UploadOk system (.server event))
    (other : event ≠ .accept) (turn : FileServer.Turn order system.server event server made)
    (took : FileServer.takes system.up event = some up) :
    UploadInv order clientFile
      { system with
        server := server
        up := up
        down := FileServer.transmit system.down made } := by
  cases state : busy system.server.pc with
  | true =>
      obtain ⟨origin, request, session, honest⟩ := inv.session state
      have short : request.file.length ≤ INT_MAX := honest.file ▸ small request.name
      have stays : busy server.pc = true → SessionInv order origin request
          { system with
            server := server
            up := up
            down := FileServer.transmit system.down made } :=
        fun stays => session_server session ok.1 other turn took ((busy_iff _).mp stays)
      constructor
      · cases still : busy server.pc with
        | true => exact receiving_fronts honest session.old short (stays still).receiving
        | false =>
            rw [last_files ok.2 turn still]
            exact inv.fronts
      · exact fun still => ⟨origin, request, stays still, honest⟩
      · intro idle held
        have stored := over_server session honest short ok turn took idle held
        rw [← session.name] at stored
        exact stored
  | false =>
      cases turn with
      | accepted => exact absurd rfl other
      | acceptFailed here =>
          exact ⟨inv.fronts, (fun still => nomatch still), (fun idle => nomatch idle)⟩
      | ended _ _ here => simp [here, busy] at state
      | storedPart _ _ here => simp [here, busy] at state
      | _ => simp_all [busy]

theorem upload_step {order : ByteOrder} {clientFile : Bytes → Bytes} {system next : System}
    {event : Event} {made : List Call} (inv : UploadInv order clientFile system)
    (small : ∀ name, (clientFile name).length ≤ INT_MAX) (ok : UploadOk system event)
    (turn : Turn order clientFile system event next made) :
    UploadInv order clientFile next := by
  cases turn with
  | connected name memory idle =>
      refine ⟨inv.fronts, fun _ => ?_, (fun idle => nomatch idle)⟩
      exact ⟨_, _, session_start order _ _ _ ok.1, rfl, ok.2, inv.fronts⟩
  | served event server up made other turn took => exact upload_server inv small ok other turn took
  | conversed event client down made turn took =>
      constructor
      · exact inv.fronts
      · intro busy
        obtain ⟨origin, request, session, honest⟩ := inv.session busy
        exact ⟨origin, request, session_client session ok.1 turn took, honest⟩
      · intro idle held
        rw [(FileClient.turn_keeps turn).1]
        exact inv.past idle ((FileClient.transmit_broken ..).symm.trans held)
  | cut up down =>
      constructor
      · exact inv.fronts
      · intro busy
        obtain ⟨origin, request, session, honest⟩ := inv.session busy
        exact ⟨origin, request, session_cut session up down, honest⟩
      · exact fun _ held => nomatch held

theorem upload_start (order : ByteOrder) {clientFile : Bytes → Bytes}
    {files : Files Bytes UInt8} (filename : Memory (FileServer.NAMESIZE + 1))
    (totalbytes : Memory 4) (begun : Fronts clientFile files) :
    UploadInv order clientFile (start files filename totalbytes) :=
  ⟨begun, (fun busy => nomatch busy), (fun _ held => nomatch held)⟩

/-- In every state of every run the server has front parts of the clients'
files, none shorter than before; and after a session that was not cut it has
the whole file. -/
theorem upload_resumes (order : ByteOrder) (clientFile : Bytes → Bytes)
    (files : Files Bytes UInt8) (filename : Memory (FileServer.NAMESIZE + 1))
    (totalbytes : Memory 4) (earlier later : List Event) (middle last : System)
    (before after : List Call) (small : ∀ name, (clientFile name).length ≤ INT_MAX)
    (begun : ∀ name content, files name = some content → content <+: clientFile name)
    (guarded : Along (step order clientFile) UploadOk (start files filename totalbytes)
      (earlier ++ later))
    (first : exec (step order clientFile) (start files filename totalbytes) earlier =
      some (middle, before))
    (second : exec (step order clientFile) middle later = some (last, after)) :
    (∀ name content, last.server.files name = some content → content <+: clientFile name) ∧
      Directory.Grows middle.server.files last.server.files ∧
      (last.server.pc = .accepting → last.up.broken = false →
        last.server.files last.client.name = some (clientFile last.client.name)) := by
  have ran := (Machine.exec_append_iff ..).mpr ⟨middle, before, after, first, second, rfl⟩
  have inv := Machine.exec_invariant_along
    (fun _ system => UploadInv order clientFile system)
    (fun _ _ _ _ _ inv ok taken => upload_step inv small ok (turn_of_step taken))
    (upload_start order filename totalbytes begun) guarded ran
  refine ⟨inv.fronts, ?_, inv.past⟩
  exact Machine.exec_invariant
    (fun _ system => Directory.Grows middle.server.files system.server.files)
    (fun _ _ _ _ _ grown taken => Directory.grows_trans grown (turn_grows (turn_of_step taken)))
    (Directory.grows_refl _) second

/-- The first session is cut when one byte of three has come. -/
def cutUpload : List Event :=
  [.connect [97] (.zeros 4), .client (.openRead true),
    .client (.sendName (some 256)), .server (.recvName (some (CBuffer.strncpy [97] 256))),
    .server (.sendOffset (some 4)), .client (.recvOffset (some [0, 0, 0, 0])),
    .client (.sendSize (some 4)), .client .fread, .client (.sendBlock (some 3)), .cut 5 0,
    .server (.recvSize (some [3, 0, 0, 0])), .server (.openAppend true),
    .server (.recvData (some [1])), .server (.fwrite 1), .server (.recvData none)]

def secondUpload : List Event := .connect [97] (.zeros 4) :: twoBytes

theorem upload_resumes_secondUpload :
    ∃ middle before last after,
      exec (step IntBytes.littleEndian fun _ => [1, 2, 3])
          (start (fun _ => none) (.zeros _) (.zeros _)) cutUpload = some (middle, before) ∧
        exec (step IntBytes.littleEndian fun _ => [1, 2, 3]) middle secondUpload =
          some (last, after) ∧
        last.server.files last.client.name = some [1, 2, 3] := by
  have runs : (exec (step IntBytes.littleEndian fun _ => [1, 2, 3])
      (start (fun _ => none) (.zeros _) (.zeros _)) (cutUpload ++ secondUpload)).isSome =
          true := by decide +kernel
  have ends : (exec (step IntBytes.littleEndian fun _ => [1, 2, 3])
      (start (fun _ => none) (.zeros _) (.zeros _)) (cutUpload ++ secondUpload)).all
          (fun run => run.1.server.pc = .accepting && run.1.up.broken = false) = true := by
    decide +kernel
  obtain ⟨last, calls, ran⟩ := Machine.exec_of_isSome runs
  rw [ran] at ends
  simp only [Option.all_some, Bool.and_eq_true, decide_eq_true_eq] at ends
  obtain ⟨middle, before, after, first, second, rfl⟩ := (Machine.exec_append_iff ..).mp ran
  have resumed := upload_resumes IntBytes.littleEndian (fun _ => [1, 2, 3]) (fun _ => none)
    (.zeros _) (.zeros _) cutUpload secondUpload middle last before after (fun _ => by decide)
    (fun _ _ found => nomatch found) ((Machine.misses_zero_iff _ _).mp (by decide +kernel))
    first second
  exact ⟨middle, before, last, after, first, second, resumed.2.2 ends.1 ends.2⟩

end NetworkTest.Upload
