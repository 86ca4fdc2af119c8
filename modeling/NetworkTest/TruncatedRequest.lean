import NetworkTest.FileServer

/-!
Requests that end early. Only a negative result of `recv` makes the server give
a session up; a short name is taken for the name, and of a short size the
bytes that are missing keep what was in memory before.
-/

namespace NetworkTest.FileServer

open CBuffer (Bytes Memory cstring)
open Directory (Files contents)
open IntBytes (Word ByteOrder)
open Channel (Link)
open Machine (Step exec Along)

def isVerdict : Call → Bool
  | .complete => true
  | .failed => true
  | _ => false

def verdict (calls : List Call) : List Call := calls.filter isVerdict

theorem verdict_finish (order : ByteOrder) (server : Server) {printed : List Call}
    (plain : verdict printed = []) :
    verdict (finish order server printed).2 =
      [if server.numtotal = order.decode server.totalbytes then .complete else .failed] := by
  rw [finish, verdict, List.filter_append, ← verdict, plain]
  split <;> rfl

/-- The results that end a session before its data loop. -/
def refuses : Event → Bool
  | .recvName none => true
  | .openRead false => true
  | .sendOffset none => true
  | .recvSize none => true
  | .openAppend false => true
  | _ => false

/-- A session for `name` in which no data came, `value` being in
`totalbytes`. -/
inductive Ends (files : Files Bytes UInt8) (name : Bytes) (value : Word) (events : List Event)
    (last : Server) (calls : List Call) : Prop where
  | refused (some : ∃ event ∈ events, refuses event = true) (unchanged : last.files = files)
      (silent : verdict calls = [])
  | opened (none : ∀ event ∈ events, refuses event = false) (named : name ≠ [])
      (grown : last.files = Directory.append files name [])
      (judged : verdict calls = [if 0 = value then .complete else .failed])

theorem Ends.cons {files : Files Bytes UInt8} {name : Bytes} {value : Word} {event : Event}
    {events : List Event} {last : Server} {made calls : List Call}
    (goes : refuses event = false) (plain : verdict made = [])
    (ends : Ends files name value events last calls) :
    Ends files name value (event :: events) last (made ++ calls) := by
  have verdicts : verdict (made ++ calls) = verdict calls := by
    rw [verdict, List.filter_append, ← verdict, plain, List.nil_append, verdict]
  cases ends with
  | refused some unchanged silent =>
      obtain ⟨refusal, member, refuses⟩ := some
      exact .refused ⟨refusal, List.mem_cons_of_mem _ member, refuses⟩ unchanged
        (verdicts.trans silent)
  | opened none named grown judged =>
      refine .opened ?_ named grown (verdicts.trans judged)
      intro other member
      rcases List.mem_cons.mp member with rfl | later
      · exact goes
      · exact none other later

section Stages

variable {order : ByteOrder} {server last : Server} {link rest : Link UInt8}
  {events : List Event} {calls : List Call}

theorem exec_serve_cons {event : Event}
    (ran : exec (serve order) (server, link) (event :: events) = some ((last, rest), calls)) :
    ∃ next left made later, Turn order server event next made ∧ takes link event = some left ∧
      exec (serve order) (next, left) events = some ((last, rest), later) ∧
        calls = made ++ later := by
  obtain ⟨⟨next, left⟩, made, later, taken, tail, rfl⟩ := (Machine.exec_cons_iff ..).mp ran
  obtain ⟨turn, took⟩ := serve_eq_some taken
  exact ⟨next, left, made, later, turn, took, tail, rfl⟩

theorem stage_over (one : .accept ∉ events) (idle : server.pc = .accepting)
    (past : last.pc = .accepting)
    (ran : exec (serve order) (server, link) events = some ((last, rest), calls)) :
    events = [] ∧ last = server ∧ calls = [] := by
  cases events with
  | nil =>
      simp only [exec, Option.some.injEq, Prod.mk.injEq] at ran
      exact ⟨rfl, ran.1.1.symm, ran.2.symm⟩
  | cons event events =>
      obtain ⟨next, left, made, later, turn, took, tail, rfl⟩ := exec_serve_cons ran
      cases turn with
      | accepted => exact absurd List.mem_cons_self one
      | acceptFailed =>
          cases events with
          | nil =>
              simp only [exec, Option.some.injEq, Prod.mk.injEq] at tail
              rw [← tail.1.1] at past
              cases past
          | cons event events =>
              obtain ⟨_, _, _, _, turn, _⟩ := exec_serve_cons tail
              cases turn <;> contradiction
      | _ => simp_all

theorem stage_cons (busy : server.pc ≠ .accepting) (one : .accept ∉ events)
    (past : last.pc = .accepting)
    (ran : exec (serve order) (server, link) events = some ((last, rest), calls)) :
    ∃ event tail next left made later, events = event :: tail ∧ .accept ∉ tail ∧
      Turn order server event next made ∧ takes link event = some left ∧
        exec (serve order) (next, left) tail = some ((last, rest), later) ∧
          calls = made ++ later := by
  cases events with
  | nil =>
      simp only [exec, Option.some.injEq, Prod.mk.injEq] at ran
      rw [← ran.1.1] at past
      exact absurd past busy
  | cons event tail =>
      obtain ⟨next, left, made, later, turn, took, ran, split⟩ := exec_serve_cons ran
      exact ⟨event, tail, next, left, made, later, rfl,
        fun member => one (List.mem_cons_of_mem event member), turn, took, ran, split⟩

theorem stage_refused {event : Event} {made : List Call} {files : Files Bytes UInt8}
    {name : Bytes} {value : Word} (refusal : refuses event = true) (one : .accept ∉ events)
    (plain : verdict made = []) (idle : server.pc = .accepting) (past : last.pc = .accepting)
    (ran : exec (serve order) (server, link) events = some ((last, rest), calls))
    (same : server.files = files) :
    Ends files name value (event :: events) last (made ++ calls) := by
  obtain ⟨rfl, rfl, rfl⟩ := stage_over one idle past ran
  exact .refused ⟨event, List.mem_cons_self, refusal⟩ same (by rw [List.append_nil, plain])

theorem stage_data (here : server.pc = .recvData) (empty : link.arriving = [])
    (one : .accept ∉ events) (past : last.pc = .accepting)
    (ran : exec (serve order) (server, link) events = some ((last, rest), calls)) :
    (∀ event ∈ events, refuses event = false) ∧ last.files = server.files ∧
      verdict calls =
        [if server.numtotal = order.decode server.totalbytes then .complete else .failed] := by
  have busy : server.pc ≠ .accepting := by simp [here]
  obtain ⟨event, events, next, left, made, later, rfl, oneTail, turn, took, tail, rfl⟩ :=
    stage_cons busy one past ran
  cases turn with
  | ended result printed _ last =>
      obtain ⟨rfl, rfl, rfl⟩ := stage_over oneTail rfl past tail
      refine ⟨?_, rfl, ?_⟩
      · intro other member
        rw [List.mem_singleton.mp member]
        rfl
      · rw [List.append_nil]
        apply verdict_finish order server
        rcases last with ⟨_, rfl⟩ | ⟨_, rfl⟩ <;> rfl
  | received block _ more _ =>
      obtain ⟨_, rfl, _⟩ := Channel.Link.recvAll_data took
      exact absurd (by rw [empty, List.take_nil]) more
  | _ => simp_all

theorem stage_openAppend (here : server.pc = .openAppend) (empty : link.arriving = [])
    (one : .accept ∉ events) (past : last.pc = .accepting)
    (ran : exec (serve order) (server, link) events = some ((last, rest), calls)) :
    Ends server.files server.name (order.decode server.totalbytes) events last calls := by
  have busy : server.pc ≠ .accepting := by simp [here]
  obtain ⟨event, events, next, left, made, later, rfl, oneTail, turn, took, tail, rfl⟩ :=
    stage_cons busy one past ran
  cases turn with
  | unopened => exact stage_refused rfl oneTail rfl rfl past tail rfl
  | opened _ named =>
      cases took
      obtain ⟨none, files, judged⟩ := stage_data rfl empty oneTail past tail
      refine .opened ?_ named files judged
      intro other member
      rcases List.mem_cons.mp member with rfl | later
      · rfl
      · exact none other later
  | _ => simp_all

theorem stage_recvSize (here : server.pc = .recvSize) (few : link.arriving.length < 4)
    (one : .accept ∉ events) (past : last.pc = .accepting)
    (ran : exec (serve order) (server, link) events = some ((last, rest), calls)) :
    Ends server.files server.name
      (order.decode (server.totalbytes.store link.arriving (Nat.le_of_lt few)))
      events last calls := by
  have busy : server.pc ≠ .accepting := by simp [here]
  obtain ⟨event, events, next, left, made, later, rfl, oneTail, turn, took, tail, rfl⟩ :=
    stage_cons busy one past ran
  cases turn with
  | sizeFailed => exact stage_refused rfl oneTail rfl rfl past tail rfl
  | sized data _ fits =>
      obtain ⟨rfl, whole, _⟩ := Channel.Link.recvAll_data took
      rw [List.take_of_length_le (Nat.le_of_lt few)] at whole
      subst whole
      have empty : (link.take 4).arriving = [] :=
        List.drop_of_length_le (Nat.le_of_lt few)
      exact .cons rfl rfl (stage_openAppend rfl empty oneTail past tail)
  | _ => simp_all

theorem stage_sendOffset (here : server.pc = .sendOffset) (few : link.arriving.length < 4)
    (one : .accept ∉ events) (past : last.pc = .accepting)
    (ran : exec (serve order) (server, link) events = some ((last, rest), calls)) :
    Ends server.files server.name
      (order.decode (server.totalbytes.store link.arriving (Nat.le_of_lt few)))
      events last calls := by
  have busy : server.pc ≠ .accepting := by simp [here]
  obtain ⟨event, events, next, left, made, later, rfl, oneTail, turn, took, tail, rfl⟩ :=
    stage_cons busy one past ran
  cases turn with
  | offsetFailed => exact stage_refused rfl oneTail rfl rfl past tail rfl
  | offsetSent count _ short =>
      cases took
      have ends := stage_recvSize rfl few oneTail past tail
      exact .cons rfl rfl ends
  | _ => simp_all

theorem stage_openRead (here : server.pc = .openRead) (few : link.arriving.length < 4)
    (one : .accept ∉ events) (past : last.pc = .accepting)
    (ran : exec (serve order) (server, link) events = some ((last, rest), calls)) :
    Ends server.files server.name
      (order.decode (server.totalbytes.store link.arriving (Nat.le_of_lt few)))
      events last calls := by
  have busy : server.pc ≠ .accepting := by simp [here]
  obtain ⟨event, events, next, left, made, later, rfl, oneTail, turn, took, tail, rfl⟩ :=
    stage_cons busy one past ran
  cases turn with
  | unreadable => exact stage_refused rfl oneTail rfl rfl past tail rfl
  | measured =>
      cases took
      have ends := stage_sendOffset rfl few oneTail past tail
      exact .cons rfl rfl ends
  | _ => simp_all

theorem stage_recvName (here : server.pc = .recvName)
    (few : (link.arriving.drop NAMESIZE).length < 4) (one : .accept ∉ events)
    (past : last.pc = .accepting)
    (ran : exec (serve order) (server, link) events = some ((last, rest), calls)) :
    Ends server.files (cstring (link.arriving.take NAMESIZE))
      (order.decode (server.totalbytes.store (link.arriving.drop NAMESIZE) (Nat.le_of_lt few)))
      events last calls := by
  have busy : server.pc ≠ .accepting := by simp [here]
  obtain ⟨event, events, next, left, made, later, rfl, oneTail, turn, took, tail, rfl⟩ :=
    stage_cons busy one past ran
  cases turn with
  | nameFailed => exact stage_refused rfl oneTail rfl rfl past tail rfl
  | named data _ fits =>
      obtain ⟨rfl, rfl, _⟩ := Channel.Link.recvAll_data took
      rw [← storeName_name server fits]
      apply Ends.cons rfl rfl
      split at tail
      case isTrue => exact stage_openRead rfl few oneTail past tail
      case isFalse => exact stage_sendOffset rfl few oneTail past tail
  | _ => simp_all

end Stages

/-! What is left in memory decides which calls follow only through the name,
and the name is what was received. -/

/-- Before a name has been received, that of an earlier session is still in
the array. -/
def Server.named (server : Server) : Bool :=
  match server.pc with
  | .accepting => false
  | .recvName => false
  | .exited => false
  | _ => true

structure Alike (left right : Server) : Prop where
  pc : left.pc = right.pc
  files : left.files = right.files
  currbytes : left.currbytes = right.currbytes
  name : left.named = true → left.name = right.name

/-- Where the name is not in use it need not be alike. -/
theorem Alike.unnamed {left right : Server} (pc : left.pc = right.pc)
    (files : left.files = right.files) (currbytes : left.currbytes = right.currbytes)
    (idle : left.named = false) : Alike left right := by
  refine ⟨pc, files, currbytes, fun named => ?_⟩
  rw [idle] at named
  cases named

theorem step_alike {order : ByteOrder} {left right next : Server} {event : Event}
    {made : List Call} (alike : Alike left right) (turn : Turn order left event next made) :
    ∃ target copies, step order right event = some (target, copies) ∧ Alike next target := by
  obtain ⟨pc, files, currbytes, late⟩ := alike
  cases turn with
  | accepted here =>
      exact ⟨_, _, step_of_turn (.accepted (pc ▸ here)), .unnamed rfl files currbytes rfl⟩
  | acceptFailed here =>
      exact ⟨_, _, step_of_turn (.acceptFailed (pc ▸ here)), .unnamed rfl files currbytes rfl⟩
  | nameFailed here =>
      exact ⟨_, _, step_of_turn (.nameFailed (pc ▸ here)), .unnamed rfl files currbytes rfl⟩
  | named data here fits =>
      refine ⟨_, _, step_of_turn (.named data (pc ▸ here) fits), ?_, files, rfl, ?_⟩
      · simp only [storeName_name, files]
      · intro _
        exact (storeName_name left fits).trans (storeName_name right fits).symm
  | unreadable here =>
      exact ⟨_, _, step_of_turn (.unreadable (pc ▸ here)), .unnamed rfl files currbytes rfl⟩
  | measured here =>
      have same := late (by rw [Server.named, here])
      refine ⟨_, _, step_of_turn (.measured (pc ▸ here)), rfl, files, ?_, fun _ => same⟩
      simp only [files, same]
  | offsetFailed here =>
      exact ⟨_, _, step_of_turn (.offsetFailed (pc ▸ here)), .unnamed rfl files currbytes rfl⟩
  | offsetSent count here short =>
      refine ⟨_, _, step_of_turn (.offsetSent count (pc ▸ here) (currbytes ▸ short)), rfl, files,
        currbytes, fun _ => late (by rw [Server.named, here])⟩
  | sizeFailed here =>
      exact ⟨_, _, step_of_turn (.sizeFailed (pc ▸ here)), .unnamed rfl files currbytes rfl⟩
  | sized data here fits =>
      exact ⟨_, _, step_of_turn (.sized data (pc ▸ here) fits), rfl, files, currbytes,
        fun _ => late (by rw [Server.named, here])⟩
  | unopened here =>
      exact ⟨_, _, step_of_turn (.unopened (pc ▸ here)), .unnamed rfl files currbytes rfl⟩
  | opened here named =>
      have same := late (by rw [Server.named, here])
      refine ⟨_, _, step_of_turn (.opened (pc ▸ here) (same ▸ named)), rfl, ?_, currbytes,
        fun _ => same⟩
      simp only [files, same]
  | ended result printed here last =>
      exact ⟨_, _, step_of_turn (.ended result printed (pc ▸ here) last),
        .unnamed rfl files currbytes rfl⟩
  | received block here more short =>
      exact ⟨_, _, step_of_turn (.received block (pc ▸ here) more short), rfl, files, currbytes,
        fun _ => late (by rw [Server.named, here])⟩
  | stored block here =>
      have same := late (by rw [Server.named, here])
      refine ⟨_, _, step_of_turn (.stored block (pc ▸ here)), rfl, ?_, currbytes, fun _ => same⟩
      simp only [files, same]
  | storedPart block written here part =>
      have same := late (by rw [Server.named, here])
      refine ⟨_, _, step_of_turn (.storedPart block written (pc ▸ here) part),
        .unnamed rfl ?_ currbytes rfl⟩
      simp only [files, same]

theorem run_alike {order : ByteOrder} {left right last : Server} {link rest : Link UInt8}
    {events : List Event} {calls : List Call} (alike : Alike left right)
    (ran : exec (serve order) (left, link) events = some ((last, rest), calls)) :
    ∃ final copies, exec (serve order) (right, link) events = some ((final, rest), copies) ∧
      final.pc = last.pc := by
  have followed : ∃ final copies,
      exec (serve order) (right, link) events = some (final, copies) ∧
        Alike last final.1 ∧ rest = final.2 := by
    apply Machine.exec_follows
      (fun (left right : Server × Link UInt8) => Alike left.1 right.1 ∧ left.2 = right.2) _ _ ran
    · rintro ⟨left, link⟩ ⟨right, same⟩ event ⟨next, rest⟩ made ⟨alike, equal⟩ taken
      obtain rfl : link = same := equal
      obtain ⟨turn, took⟩ := serve_eq_some taken
      obtain ⟨target, copies, stepped, kept⟩ := step_alike alike turn
      exact ⟨(target, rest), copies, by simp only [serve, stepped, took], kept, rfl⟩
    · exact ⟨alike, rfl⟩
  obtain ⟨⟨final, after⟩, copies, same, kept, rfl⟩ := followed
  exact ⟨final, copies, same, kept.pc.symm⟩

/-- With `filename` and `totalbytes` as an earlier session left them. -/
def Server.after (server : Server) (filename : Memory (NAMESIZE + 1)) (totalbytes : Memory 4) :
    Server :=
  { server with filename := filename, totalbytes := totalbytes }

/-- Whatever was in memory, the session changes no file, reports no success,
and comes out in one way. What it comes to are the files and the verdict: the line
with the sizes, which shows what was left over in `totalbytes`, is not compared. -/
structure TreatedAsFailed (order : ByteOrder) (server : Server) (link : Link UInt8)
    (events : List Event) : Prop where
  fails : ∀ filename totalbytes last rest calls,
    exec (serve order) (server.after filename totalbytes, link) (.accept :: events) =
        some ((last, rest), calls) →
      last.files = server.files ∧ .complete ∉ calls
  independent : ∀ filename totalbytes filename' totalbytes' last last' rest rest' calls calls',
    exec (serve order) (server.after filename totalbytes, link) (.accept :: events) =
        some ((last, rest), calls) →
      exec (serve order) (server.after filename' totalbytes', link) (.accept :: events) =
          some ((last', rest'), calls') →
        last.files = last'.files ∧ verdict calls = verdict calls'

/-- A call before the data loop has failed; or there is a file of the received
name already, and a byte other than zero of the size has come. -/
def Harmless (server : Server) (stream : Bytes) (events : List Event) : Prop :=
  (∃ event ∈ events, refuses event = true) ∨
    ((server.files (cstring (stream.take NAMESIZE))).isSome = true ∧
      ∃ byte ∈ stream.drop NAMESIZE, byte ≠ 0)

theorem session_ends {order : ByteOrder} {server last : Server} {link rest : Link UInt8}
    {filename : Memory (NAMESIZE + 1)} {totalbytes : Memory 4}
    {events : List Event} {calls : List Call}
    (few : (link.arriving.drop NAMESIZE).length < 4) (one : .accept ∉ events)
    (past : last.pc = .accepting)
    (ran : exec (serve order) (server.after filename totalbytes, link) (.accept :: events) =
      some ((last, rest), calls)) :
    Ends server.files (cstring (link.arriving.take NAMESIZE))
      (order.decode (totalbytes.store (link.arriving.drop NAMESIZE) (Nat.le_of_lt few)))
      events last calls := by
  obtain ⟨next, left, made, later, turn, took, tail, rfl⟩ := exec_serve_cons ran
  cases turn with
  | accepted idle =>
      cases took
      have ends := stage_recvName rfl few one past tail
      exact ends

theorem Ends.harmless {files : Files Bytes UInt8} {name : Bytes} {value : Word}
    {events : List Event} {last : Server} {calls : List Call}
    (ends : Ends files name value events last calls)
    (found : (∃ event ∈ events, refuses event = true) ∨
      (files name).isSome = true ∧ value ≠ 0) :
    last.files = files ∧ verdict calls =
      if ∃ event ∈ events, refuses event = true then [] else [.failed] := by
  cases ends with
  | refused some unchanged silent => exact ⟨unchanged, by rw [silent, if_pos some]⟩
  | opened none named grown judged =>
      have going : ¬ ∃ event ∈ events, refuses event = true := by
        rintro ⟨event, member, refusal⟩
        rw [none event member] at refusal
        cases refusal
      obtain ⟨present, nonzero⟩ := found.resolve_left going
      obtain ⟨content, present⟩ := Option.isSome_iff_exists.mp present
      rw [Directory.append_nil present] at grown
      exact ⟨grown, by rw [judged, if_neg (Ne.symm nonzero), if_neg going]⟩

theorem store_nonzero {order : ByteOrder} {memory : Memory 4} {data : Bytes}
    (fits : data.length ≤ 4) (nonzero : ∃ byte ∈ data, byte ≠ 0) :
    order.decode (memory.store data fits) ≠ 0 := by
  intro zero
  rw [IntBytes.decode_eq_zero_iff] at zero
  obtain ⟨byte, member, differs⟩ := nonzero
  have stored : byte ∈ (memory.store data fits).val := List.mem_append_left _ member
  rw [zero] at stored
  exact differs (List.eq_of_mem_replicate stored)

theorem store_zeros {order : ByteOrder} {data : Bytes} (fits : data.length ≤ 4)
    (zeros : ∀ byte ∈ data, byte = 0) :
    order.decode ((Memory.zeros 4).store data fits) = 0 := by
  rw [IntBytes.decode_eq_zero_iff]
  apply Subtype.ext
  apply List.eq_replicate_iff.mpr
  refine ⟨((Memory.zeros 4).store data fits).property, ?_⟩
  intro byte member
  rcases List.mem_append.mp member with new | old
  · exact zeros byte new
  · exact List.eq_of_mem_replicate (List.mem_of_mem_drop old)

section Truncated

variable {order : ByteOrder} {server last : Server} {link rest : Link UInt8}
  {events : List Event} {calls : List Call}

theorem few_sizes {stream : Bytes} (short : stream.length < NAMESIZE + 4) :
    (stream.drop NAMESIZE).length < 4 := by
  rw [List.length_drop]
  omega

/-- Any other memory goes the same way, to the end of the session. -/
theorem after_alike
    (ran : exec (serve order) (server, link) (.accept :: events) = some ((last, rest), calls))
    (filename : Memory (NAMESIZE + 1)) (totalbytes : Memory 4) :
    ∃ final copies, exec (serve order) (server.after filename totalbytes, link)
      (.accept :: events) = some ((final, rest), copies) ∧ final.pc = last.pc := by
  apply run_alike _ ran
  obtain ⟨_, _, _, _, turn, _⟩ := exec_serve_cons ran
  cases turn with
  | accepted idle => exact .unnamed rfl rfl rfl (by rw [Server.named, idle])

/-- With zeros in memory, the count of no bytes is what was announced. -/
theorem harmless_of_failed (short : link.arriving.length < NAMESIZE + 4) (one : .accept ∉ events)
    (ran : exec (serve order) (server, link) (.accept :: events) = some ((last, rest), calls))
    (past : last.pc = .accepting) (failed : TreatedAsFailed order server link events) :
    Harmless server link.arriving events := by
  have few := few_sizes short
  by_contra harmful
  rw [Harmless, not_or] at harmful
  obtain ⟨none, harmful⟩ := harmful
  obtain ⟨final, copies, again, finished⟩ := after_alike ran server.filename (.zeros 4)
  obtain ⟨unchanged, silent⟩ := failed.fails _ _ final rest copies again
  cases session_ends few one (finished.trans past) again with
  | refused some _ _ => exact none some
  | opened _ named grown judged =>
      have found : (server.files (cstring (link.arriving.take NAMESIZE))).isSome = true := by
        have same := congrFun (grown.symm.trans unchanged) (cstring (link.arriving.take NAMESIZE))
        rw [← same]
        simp
      have zeros : ∀ byte ∈ link.arriving.drop NAMESIZE, byte = 0 :=
        fun byte member => by_contra fun nonzero => harmful ⟨found, byte, member, nonzero⟩
      have zero := @store_zeros order _ (Nat.le_of_lt few) zeros
      have complete : .complete ∈ verdict copies := by
        rw [judged, if_pos zero.symm]
        exact List.mem_singleton_self _
      exact silent (List.mem_of_mem_filter complete)

/-- No file changes in a harmless session, and its verdict depends on its
results only. -/
theorem harmless_outcome (short : link.arriving.length < NAMESIZE + 4) (one : .accept ∉ events)
    (ran : exec (serve order) (server, link) (.accept :: events) = some ((last, rest), calls))
    (past : last.pc = .accepting) (harmless : Harmless server link.arriving events)
    {filename : Memory (NAMESIZE + 1)} {totalbytes : Memory 4} {final : Server}
    {left : Link UInt8} {copies : List Call}
    (again : exec (serve order) (server.after filename totalbytes, link) (.accept :: events) =
      some ((final, left), copies)) :
    final.files = server.files ∧ verdict copies =
      if ∃ event ∈ events, refuses event = true then [] else [.failed] := by
  have few := few_sizes short
  have finished : final.pc = .accepting := by
    obtain ⟨other, made, same, pc⟩ := after_alike ran filename totalbytes
    rw [again] at same
    cases same
    exact pc.trans past
  apply (session_ends few one finished again).harmless
  exact harmless.imp_right fun both => ⟨both.1, store_nonzero (Nat.le_of_lt few) both.2⟩

end Truncated

/-- A request that ends before its name and size are complete is treated as
failed exactly when it is harmless. -/
theorem truncated_failed_iff (order : ByteOrder) (server last : Server)
    (link rest : Link UInt8) (events : List Event) (calls : List Call)
    (short : link.arriving.length < NAMESIZE + 4) (one : .accept ∉ events)
    (ran : exec (serve order) (server, link) (.accept :: events) = some ((last, rest), calls))
    (past : last.pc = .accepting) :
    TreatedAsFailed order server link events ↔ Harmless server link.arriving events := by
  constructor
  · exact harmless_of_failed short one ran past
  · intro harmless
    constructor
    · intro filename totalbytes final left copies again
      obtain ⟨unchanged, judged⟩ := harmless_outcome short one ran past harmless again
      refine ⟨unchanged, fun printed => ?_⟩
      have complete : .complete ∈ verdict copies := List.mem_filter.mpr ⟨printed, rfl⟩
      rw [judged] at complete
      split at complete <;> simp at complete
    · intro filename totalbytes filename' totalbytes' last last' rest rest' calls calls' again
        again'
      have first := harmless_outcome short one ran past harmless again
      have second := harmless_outcome short one ran past harmless again'
      exact ⟨first.1.trans second.1.symm, first.2.trans second.2.symm⟩

def emptyServer : Server where
  pc := .accepting
  files := fun _ => none
  filename := .zeros _
  currbytes := 0
  totalbytes := .zeros _
  numtotal := 0

/-- A cut connection on which the name "a" has arrived, and nothing else. -/
def nameOnly : Link UInt8 := (Link.fresh.send [97]).cut 1

theorem truncated_failed_iff_nameOnly :
    ∃ last rest calls,
      exec (serve IntBytes.littleEndian) (emptyServer, nameOnly)
        [.accept, .recvName (some [97]), .sendOffset none] = some ((last, rest), calls) ∧
      TreatedAsFailed IntBytes.littleEndian emptyServer nameOnly
        [.recvName (some [97]), .sendOffset none] := by
  refine ⟨_, _, _, rfl, ?_⟩
  refine (truncated_failed_iff IntBytes.littleEndian emptyServer _ nameOnly _ _ _ (by decide)
    (by decide) rfl rfl).mpr (.inl ?_)
  exact ⟨.sendOffset none, by decide, rfl⟩

/-- The same name, and a `send` that is not refused: the file is made, and its
transfer reported complete. -/
theorem name_only_complete :
    ¬ ∀ (order : ByteOrder) (server last : Server) (link rest : Link UInt8)
      (events : List Event) (calls : List Call),
      link.arriving.length < NAMESIZE + 4 → .accept ∉ events →
        exec (serve order) (server, link) (.accept :: events) = some ((last, rest), calls) →
          last.pc = .accepting → TreatedAsFailed order server link events := by
  intro all
  have failed := all IntBytes.littleEndian emptyServer _ nameOnly _
    [.recvName (some [97]), .sendOffset (some 4), .recvSize (some []), .openAppend true,
      .recvData (some [])] _ (by decide) (by decide) rfl rfl
  have unchanged := (failed.fails emptyServer.filename emptyServer.totalbytes _ _ _ rfl).1
  have made := congrFun unchanged [97]
  cases made

end NetworkTest.FileServer
