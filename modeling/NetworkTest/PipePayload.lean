import NetworkTest.PipeEcho

/-!
What the pipe and FIFO servers send back. The number of bytes received stays
behind in the parent; the child finds the end of the text anew, at the first
zero byte of the record.
-/

namespace NetworkTest.PipeEcho

open CBuffer (Bytes cstring)
open Channel (Link)
open Machine (Step exec Along Throughout)

/-- Each terminating zero was stored inside `data`, and each answer to a datagram
is its bytes. -/
structure Exact (system : System) : Prop where
  inside : ∀ index ∈ system.stores, index < MAX_BUFSZ
  same : ∀ answer ∈ system.answers, ∀ i, answer.origin = some i →
    ∀ datagram, system.received[i]? = some datagram → answer.payload = datagram.data

/-- A datagram received leaves room for the zero, a datagram answered has no zero
of its own. -/
def Plain (system : System) : Event → Prop
  | .recvfrom datagram => datagram.data.length < MAX_BUFSZ
  | .answer _ => ∀ i ∈ system.origin, ∀ datagram ∈ system.received[i]?, 0 ∉ datagram.data
  | _ => True

instance (system : System) : (event : Event) → Decidable (Plain system event)
  | .recvfrom datagram => inferInstanceAs (Decidable (datagram.data.length < MAX_BUFSZ))
  | .answer _ => inferInstanceAs (Decidable
      (∀ i ∈ system.origin, ∀ datagram ∈ system.received[i]?, 0 ∉ datagram.data))
  | .opens => isTrue trivial
  | .write _ => isTrue trivial
  | .exit => isTrue trivial
  | .read => isTrue trivial
  | .readFails => isTrue trivial

theorem cstring_eq_self_iff (data : Bytes) : cstring data = data ↔ 0 ∉ data := by
  constructor
  · intro same member
    rw [← same] at member
    exact CBuffer.cstring_nonzero data 0 member rfl
  · intro absent
    exact CBuffer.cstring_of_nonzero fun byte member zero => absent (zero ▸ member)

/-- The records, wherever they are: in the pipe, with the parent before its write,
and with the child, which keeps the last one also when there are no more. -/
structure Records (system : System) : Prop where
  held : system.link.broken = false
  pending : ∃ records, InPipe system records
  writing : system.parent = .writing → ∃ last, system.received.length = last + 1 ∧
    Carries system.received last system.parentMesg
  count : system.reads ≤ system.written.length
  child : ∀ i, system.origin = some i → Carries system.received i system.childMesg
  known : ∀ answer ∈ system.answers, ∀ i, answer.origin = some i → i < system.received.length
  stored : system.stores = system.received.map fun datagram => datagram.data.length

theorem records_start (kind : Kind) (parentMesg childMesg : Mesg) :
    Records (start kind parentMesg childMesg) := by
  constructor
  case pending => exact ⟨[], rfl, .nil⟩
  case writing => cases kind <;> simp [start]
  all_goals simp [start, Link.fresh, System.origin]

theorem records_received {system : System} (records : Records system) (datagram : Datagram)
    (fits : datagram.data.length ≤ MAX_BUFSZ) :
    Records { system with
      parentMesg := received system.parentMesg datagram fits
      received := system.received ++ [datagram]
      stores := system.stores ++ [datagram.data.length]
      parent := .writing } := by
  obtain ⟨held, ⟨pipe, bytes, each⟩, writing, count, child, known, stored⟩ := records
  constructor
  case held => exact held
  case pending =>
      exact ⟨pipe, bytes, List.Forall₂.imp
        (fun _ _ carries => carries_append carries datagram) each⟩
  case writing =>
      exact fun _ => ⟨system.received.length, by simp,
        carries_received system.received system.parentMesg datagram fits⟩
  case count => exact count
  case child => exact fun i origin => carries_append (child i origin) datagram
  case known =>
      intro answer member i origin
      rw [List.length_append]
      exact Nat.lt_add_right _ (known answer member i origin)
  case stored => rw [stored, List.map_append, List.map_singleton]

theorem records_written {system : System} (records : Records system)
    (here : system.parent = .writing) :
    Records { system with
      link := system.link.send system.parentMesg.bytes.val
      written := system.written ++ [system.received.length - 1]
      parent := .receiving } := by
  obtain ⟨held, ⟨pipe, bytes, each⟩, writing, count, child, known, stored⟩ := records
  obtain ⟨last, length, carries⟩ := writing here
  have index : system.received.length - 1 = last := by omega
  constructor
  case held => exact (Link.send_broken ..).trans held
  case pending =>
      refine ⟨pipe ++ [system.parentMesg], ?_, ?_⟩
      · rw [Link.send_arriving held, bytes]
        simp
      · rw [List.drop_append_of_le_length count, index]
        exact List.rel_append each (.cons carries .nil)
  case writing => simp
  case count =>
      rw [List.length_append]
      exact Nat.le_add_right_of_le count
  case child =>
      simp only [System.origin, List.take_append_of_le_length count]
      exact child
  case known => exact known
  case stored => exact stored

theorem load_nil (mesg : Mesg) (fits : [].length ≤ RECORD) : mesg.load [] fits = mesg := by
  have same : mesg.bytes.store [] fits = mesg.bytes := Subtype.ext (List.drop_zero ..)
  rw [Mesg.load, same, Mesg.ofBytes_bytes]

theorem records_read {system : System} (records : Records system) {data : Bytes}
    (fits : data.length ≤ RECORD) {link : Link UInt8}
    (piece : data = system.link.arriving.take RECORD)
    (got : system.link.read RECORD (some data) = some link) :
    Records { system with
      link := link
      childMesg := system.childMesg.load data fits
      reads := if data = [] then system.reads else system.reads + 1
      child := .answering data.length } := by
  obtain ⟨held, ⟨pipe, pending⟩, writing, count, child, known, stored⟩ := records
  have still := (Link.read_sent got).2.2.trans held
  rcases inPipe_read pending piece got with
    ⟨rfl, rfl, empty⟩ | ⟨i, mesg, rest, whole, unread, carries, left, others⟩
  -- nothing was read, and the record is the one before
  · rw [load_nil]
    exact ⟨still, ⟨[], empty, pending.2⟩, writing, count, child, known, stored⟩
  · have more : data ≠ [] := by
      rintro rfl
      have length := congrArg List.length whole
      rw [mesg.bytes.property] at length
      cases length
    have next : system.written[system.reads]? = some i := by
      rw [← List.head?_drop, unread, List.head?_cons]
    have inside := (List.getElem?_eq_some_iff.mp next).1
    rw [Mesg.load_bytes system.childMesg fits mesg whole, if_neg more]
    refine ⟨still, ⟨rest, left, others⟩, writing, inside, fun j origin => ?_, known, stored⟩
    rw [System.origin, List.take_add_one, next, Option.toList_some, List.getLast?_concat,
      Option.some.injEq] at origin
    exact origin ▸ carries

theorem records_turn {system next : System} {event : Event} {made : List Call}
    (records : Records system) (turn : Turn system event next made) : Records next := by
  cases turn with
  | receives datagram fits => exact records_received records datagram fits
  | writes here => exact records_written records here
  | reads data fits link here piece got => exact records_read records fits piece got
  | answers behind nbytes here =>
      refine { records with known := fun answer member i origin => ?_ }
      rcases List.mem_append.mp member with old | new
      · exact records.known answer old i origin
      · rw [List.mem_singleton.mp new] at origin
        obtain ⟨_, found, _⟩ := records.child i origin
        exact (List.getElem?_eq_some_iff.mp found).1
  | opens waits => exact { records with writing := by simp }
  | drops => exact { records with writing := by simp }
  | exits => exact { records with writing := by simp }
  | readFails here => exact { records with }

/-- The child's record has room for its zero, so the answer is the text up to
the first zero of the datagram. -/
theorem exact_answer {system : System} (records : Records system) (exactly : Exact system)
    (behind : Bytes) :
    Exact { system with
        answers := system.answers ++ [⟨system.origin, system.childMesg.addr,
          cstring (system.childMesg.data.val ++ behind)⟩]
        child := .reading } ↔
      ∀ i ∈ system.origin, ∀ datagram ∈ system.received[i]?, 0 ∉ datagram.data := by
  have text : ∀ i, system.origin = some i → ∀ datagram, system.received[i]? = some datagram →
      cstring (system.childMesg.data.val ++ behind) = cstring datagram.data := by
    intro i origin datagram found
    obtain ⟨other, here, answers⟩ := records.child i origin
    rw [found, Option.some.injEq] at here
    subst here
    refine (answers system.origin behind).2.2 (exactly.inside _ ?_)
    rw [records.stored]
    exact List.mem_map_of_mem (List.mem_of_getElem? found)
  constructor
  · intro next i origin datagram found
    have payload := next.same _ (List.mem_append_right _ (List.mem_singleton_self _)) i origin
      datagram found
    exact (cstring_eq_self_iff datagram.data).mp ((text i origin datagram found).symm.trans payload)
  · intro plain
    refine ⟨exactly.inside, fun answer member i origin datagram found => ?_⟩
    rcases List.mem_append.mp member with old | new
    · exact exactly.same answer old i origin datagram found
    · rw [List.mem_singleton.mp new] at origin ⊢
      refine (text i origin datagram found).trans ?_
      exact (cstring_eq_self_iff datagram.data).mpr (plain i origin datagram found)

theorem exact_received {system : System} (records : Records system) (exactly : Exact system)
    (datagram : Datagram) (fits : datagram.data.length ≤ MAX_BUFSZ) :
    Exact { system with
        parentMesg := received system.parentMesg datagram fits
        received := system.received ++ [datagram]
        stores := system.stores ++ [datagram.data.length]
        parent := .writing } ↔ datagram.data.length < MAX_BUFSZ := by
  constructor
  · exact fun next => next.inside _ (List.mem_append_right _ (List.mem_singleton_self _))
  · intro room
    constructor
    case inside => exact List.forall_mem_append.mpr ⟨exactly.inside, by simpa using room⟩
    case same =>
        intro answer member i origin old found
        rw [List.getElem?_append_left (records.known answer member i origin)] at found
        exact exactly.same answer member i origin old found

theorem exact_turn {system next : System} {event : Event} {made : List Call}
    (records : Records system) (exactly : Exact system) (turn : Turn system event next made) :
    Exact next ↔ Plain system event := by
  cases turn with
  | receives datagram fits => exact exact_received records exactly datagram fits
  | answers behind nbytes here => exact exact_answer records exactly behind
  | _ => exact iff_of_true ⟨exactly.inside, exactly.same⟩ trivial

/-- In either program the answers are the datagrams' bytes and the zeros are stored
inside, all through a run, exactly when each datagram leaves room for its zero
and each that is answered has none of its own. -/
theorem payloads_exact_iff (kind : Kind) (parentMesg childMesg : Mesg) (events : List Event)
    (system : System) (calls : List Call)
    (ran : exec step (start kind parentMesg childMesg) events = some (system, calls)) :
    Throughout step Exact (start kind parentMesg childMesg) events ↔
      Along step Plain (start kind parentMesg childMesg) events := by
  refine Machine.throughout_iff_along Records ?_ ?_ (records_start kind parentMesg childMesg) ?_ ran
  · exact fun _ _ _ _ records _ _ taken => records_turn records (turn_of_step taken)
  · exact fun _ _ _ _ records exactly taken => exact_turn records exactly (turn_of_step taken)
  · exact ⟨by simp [start], by simp [start]⟩

theorem payloads_exact_oneAnswer :
    Throughout step Exact (start .pipe blank blank) oneAnswer := by
  have runs : (exec step (start .pipe blank blank) oneAnswer).isSome := by decide +kernel
  obtain ⟨system, calls, ran⟩ := Machine.exec_of_isSome runs
  exact (payloads_exact_iff .pipe blank blank oneAnswer system calls ran).mpr
    ((Machine.misses_zero_iff ..).mp (by decide +kernel))

/-- Of `a`, a zero byte and `b` only the first byte comes back. -/
def zeroInside : List Event :=
  [.recvfrom ⟨.zeros _, [97, 0, 98]⟩, .write true, .read, .answer []]

theorem payload_cut :
    ¬ ∀ (kind : Kind) (parentMesg childMesg : Mesg) (events : List Event) (system : System)
      (calls : List Call),
      exec step (start kind parentMesg childMesg) events = some (system, calls) →
        Exact system := by
  intro all
  have shown : (exec step (start .pipe blank blank) zeroInside).map
      (fun result => (result.1.received, result.1.answers)) =
        some ([⟨.zeros _, [97, 0, 98]⟩], [⟨some 0, .zeros _, [97]⟩]) := by decide +kernel
  obtain ⟨⟨system, calls⟩, ran, same⟩ := Option.map_eq_some_iff.mp shown
  simp only [Prod.mk.injEq] at same
  have exactly := (all .pipe blank blank zeroInside system calls ran).same ⟨some 0, .zeros _, [97]⟩
    (by simp [same.2]) 0 rfl ⟨.zeros _, [97, 0, 98]⟩ (by simp [same.1])
  revert exactly
  decide

end NetworkTest.PipeEcho
