import Mathlib.Data.List.Forall2
import NetworkTest.CBuffer
import NetworkTest.Channel
import NetworkTest.Machine

/-!
The UDP echo servers of fri/pipe and fri/fifo. The parent receives datagrams and
writes each as one record into a pipe, the child reads the records and sends the
answers. The parent may exit at any moment, and then the child's reads return 0.
-/

namespace NetworkTest.PipeEcho

open CBuffer (Bytes Memory cstring)
open Channel (Link)
open Machine (Step exec Along Throughout)

def MAX_BUFSZ : Nat := 512

def ADDRESS : Nat := 16

def RECORD : Nat := 528

/-- `mesg_t`, byte by byte. -/
structure Mesg where
  addr : Memory ADDRESS
  data : Memory MAX_BUFSZ
  deriving DecidableEq

namespace Mesg

def bytes (mesg : Mesg) : Memory RECORD :=
  ⟨mesg.addr.val ++ mesg.data.val, by
    rw [List.length_append, mesg.addr.property, mesg.data.property]
    rfl⟩

def ofBytes (bytes : Memory RECORD) : Mesg where
  addr := ⟨bytes.val.take ADDRESS, by
    rw [List.length_take, bytes.property]
    rfl⟩
  data := ⟨bytes.val.drop ADDRESS, by
    rw [List.length_drop, bytes.property]
    rfl⟩

theorem ofBytes_bytes (mesg : Mesg) : ofBytes mesg.bytes = mesg := by
  rw [ofBytes]
  congr 1
  · exact Subtype.ext (List.take_left' mesg.addr.property)
  · exact Subtype.ext (List.drop_left' mesg.addr.property)

def load (mesg : Mesg) (data : Bytes) (fits : data.length ≤ RECORD) : Mesg :=
  ofBytes (mesg.bytes.store data fits)

theorem load_bytes (mesg : Mesg) {data : Bytes} (fits : data.length ≤ RECORD) (other : Mesg)
    (whole : data = other.bytes.val) : mesg.load data fits = other := by
  subst whole
  rw [load, CBuffer.store_whole, ofBytes_bytes]

end Mesg

structure Datagram where
  sender : Memory ADDRESS
  data : Bytes
  deriving DecidableEq

/-- The two programs differ in how the ends of the pipe are opened. -/
inductive Kind where
  | pipe
  | fifo
  deriving DecidableEq

inductive ParentPc where
  | opening
  | receiving
  | writing
  | exited
  deriving DecidableEq

/-- `answering` is behind a read that returned `nbytes`. -/
inductive ChildPc where
  | opening
  | reading
  | answering (nbytes : Nat)
  | exited
  deriving DecidableEq

/-- An answer, with the number of the datagram whose record the child has. -/
structure Answer where
  origin : Option Nat
  addr : Memory ADDRESS
  payload : Bytes
  deriving DecidableEq

/-- `received` are the datagrams so far, `stores` the places in `mesg.data` where the
parent has put its zeros, `written` the numbers of the datagrams whose records went
into the pipe, `reads` how many records the child has taken out. -/
structure System where
  parent : ParentPc
  parentMesg : Mesg
  link : Link UInt8
  child : ChildPc
  childMesg : Mesg
  received : List Datagram
  stores : List Nat
  written : List Nat
  reads : Nat
  answers : List Answer

/-- `behind` is what lies in memory behind the child's record. -/
inductive Event where
  | opens
  | recvfrom (datagram : Datagram)
  | write (ok : Bool)
  | exit
  | read
  | readFails
  | answer (behind : Bytes)
  deriving DecidableEq

/-- `store` is the terminating zero, at `mesg.data[index]`. -/
inductive Call where
  | store (index : Nat)
  | sendto (addr : Memory ADDRESS) (payload : Bytes)
  deriving DecidableEq

/-- The parent's record after `recvfrom` and the terminating zero. -/
def received (mesg : Mesg) (datagram : Datagram) (fits : datagram.data.length ≤ MAX_BUFSZ) :
    Mesg where
  addr := datagram.sender
  data := (mesg.data.store datagram.data fits).set datagram.data.length 0

/-- The number of the datagram whose record the child read last. -/
def System.origin (system : System) : Option Nat := (system.written.take system.reads).getLast?

def step : Step System Event Call := fun system event =>
  match event with
  | .opens =>
      if system.parent = .opening ∧ system.child = .opening then
        some ({ system with parent := .receiving, child := .reading }, [])
      else none
  | .recvfrom datagram =>
      if fits : datagram.data.length ≤ MAX_BUFSZ then
        if system.parent = .receiving then
          some ({ system with
            parentMesg := received system.parentMesg datagram fits
            received := system.received ++ [datagram]
            stores := system.stores ++ [datagram.data.length]
            parent := .writing }, [.store datagram.data.length])
        else none
      else none
  | .write ok =>
      if system.parent = .writing then
        if ok then
          some ({ system with
            link := system.link.send system.parentMesg.bytes.val
            written := system.written ++ [system.received.length - 1]
            parent := .receiving }, [])
        else some ({ system with parent := .receiving }, [])
      else none
  | .exit => some ({ system with link := system.link.close, parent := .exited }, [])
  | .read =>
      -- a pipe gives at once what it holds, up to the size asked for
      let data := system.link.arriving.take RECORD
      match system.child, system.link.read RECORD (some data) with
      | .reading, some link =>
          some ({ system with
            link := link
            childMesg := system.childMesg.load data (List.length_take_le ..)
            reads := if data = [] then system.reads else system.reads + 1
            child := .answering data.length }, [])
      | _, _ => none
  | .readFails =>
      if system.child = .reading then some ({ system with child := .exited }, []) else none
  | .answer behind =>
      match system.child with
      | .answering _ =>
          let payload := cstring (system.childMesg.data.val ++ behind)
          some ({ system with
              answers := system.answers ++ [⟨system.origin, system.childMesg.addr, payload⟩]
              child := .reading },
            [.sendto system.childMesg.addr payload])
      | _ => none

/-- After the `fork`; the records are not initialised. -/
def start (kind : Kind) (parentMesg childMesg : Mesg) : System where
  parent := if kind = .fifo then .opening else .receiving
  parentMesg := parentMesg
  link := .fresh
  child := if kind = .fifo then .opening else .reading
  childMesg := childMesg
  received := []
  stores := []
  written := []
  reads := 0
  answers := []

inductive Turn (system : System) : Event → System → List Call → Prop where
  | opens (waits : system.child = .opening) :
      Turn system .opens { system with parent := .receiving, child := .reading } []
  | receives (datagram : Datagram) (fits : datagram.data.length ≤ MAX_BUFSZ) :
      Turn system (.recvfrom datagram)
        { system with
          parentMesg := received system.parentMesg datagram fits
          received := system.received ++ [datagram]
          stores := system.stores ++ [datagram.data.length]
          parent := .writing } [.store datagram.data.length]
  | writes (here : system.parent = .writing) :
      Turn system (.write true)
        { system with
          link := system.link.send system.parentMesg.bytes.val
          written := system.written ++ [system.received.length - 1]
          parent := .receiving } []
  | drops : Turn system (.write false) { system with parent := .receiving } []
  | exits : Turn system .exit { system with link := system.link.close, parent := .exited } []
  | reads (data : Bytes) (fits : data.length ≤ RECORD) (link : Link UInt8)
      (here : system.child = .reading) (piece : data = system.link.arriving.take RECORD)
      (got : system.link.read RECORD (some data) = some link) :
      Turn system .read
        { system with
          link := link
          childMesg := system.childMesg.load data fits
          reads := if data = [] then system.reads else system.reads + 1
          child := .answering data.length } []
  | readFails (here : system.child = .reading) :
      Turn system .readFails { system with child := .exited } []
  | answers (behind : Bytes) (nbytes : Nat) (here : system.child = .answering nbytes) :
      Turn system (.answer behind)
        { system with
          answers := system.answers ++ [⟨system.origin, system.childMesg.addr,
            cstring (system.childMesg.data.val ++ behind)⟩]
          child := .reading }
        [.sendto system.childMesg.addr (cstring (system.childMesg.data.val ++ behind))]

theorem turn_of_step {system next : System} {event : Event} {made : List Call}
    (taken : step system event = some (next, made)) : Turn system event next made := by
  cases event with
  | opens =>
      simp only [step, Option.ite_none_right_eq_some, Option.some.injEq, Prod.mk.injEq] at taken
      obtain ⟨⟨_, waits⟩, rfl, rfl⟩ := taken
      exact .opens waits
  | recvfrom datagram =>
      simp only [step] at taken
      split at taken
      case isFalse => contradiction
      case isTrue fits =>
          simp only [Option.ite_none_right_eq_some, Option.some.injEq, Prod.mk.injEq] at taken
          obtain ⟨_, rfl, rfl⟩ := taken
          exact .receives datagram fits
  | write ok =>
      simp only [step, Option.ite_none_right_eq_some] at taken
      obtain ⟨here, taken⟩ := taken
      cases ok with
      | true =>
          cases taken
          exact .writes here
      | false =>
          cases taken
          exact .drops
  | exit =>
      cases taken
      exact .exits
  | read =>
      simp only [step] at taken
      split at taken
      case h_2 => contradiction
      case h_1 link here got =>
          cases taken
          exact .reads _ (List.length_take_le ..) link here rfl got
  | readFails =>
      simp only [step, Option.ite_none_right_eq_some, Option.some.injEq, Prod.mk.injEq] at taken
      obtain ⟨here, rfl, rfl⟩ := taken
      exact .readFails here
  | answer behind =>
      simp only [step] at taken
      split at taken
      case h_2 => contradiction
      case h_1 nbytes here =>
          cases taken
          exact .answers behind nbytes here

/-! An answer to each record, and no other. -/

/-- The address is the sender's and the text the datagram's; a datagram that
fills the record leaves no room for the zero. -/
def Answers (datagram : Datagram) (answer : Answer) : Prop :=
  answer.addr = datagram.sender ∧ cstring datagram.data <+: answer.payload ∧
    (datagram.data.length < MAX_BUFSZ → answer.payload = cstring datagram.data)

/-- The answers answer datagrams that were received, each another one, in the
order in which they were received. -/
structure Faithful (system : System) : Prop where
  known : ∀ answer ∈ system.answers, ∃ i datagram, answer.origin = some i ∧
    system.received[i]? = some datagram ∧ Answers datagram answer
  order : (system.answers.filterMap Answer.origin).Pairwise (· < ·)

/-- The read before an answer did not return 0: the parent was still there or
had left a record in the pipe. -/
def Fed (system : System) : Event → Prop
  | .answer _ => system.child ≠ .answering 0
  | _ => True

instance (system : System) : (event : Event) → Decidable (Fed system event)
  | .answer _ => inferInstanceAs (Decidable (system.child ≠ .answering 0))
  | .opens => isTrue trivial
  | .recvfrom _ => isTrue trivial
  | .write _ => isTrue trivial
  | .exit => isTrue trivial
  | .read => isTrue trivial
  | .readFails => isTrue trivial

/-- The record is that of datagram `i`: whatever lies behind it, it gives the
answer to it. -/
def Carries (received : List Datagram) (i : Nat) (mesg : Mesg) : Prop :=
  ∃ datagram, received[i]? = some datagram ∧
    ∀ origin behind, Answers datagram ⟨origin, mesg.addr, cstring (mesg.data.val ++ behind)⟩

theorem carries_append {received : List Datagram} {i : Nat} {mesg : Mesg}
    (carries : Carries received i mesg) (datagram : Datagram) :
    Carries (received ++ [datagram]) i mesg := by
  obtain ⟨old, found, answers⟩ := carries
  have inside := (List.getElem?_eq_some_iff.mp found).1
  exact ⟨old, (List.getElem?_append_left inside).trans found, answers⟩

theorem carries_received (earlier : List Datagram) (mesg : Mesg) (datagram : Datagram)
    (fits : datagram.data.length ≤ MAX_BUFSZ) :
    Carries (earlier ++ [datagram]) earlier.length (received mesg datagram fits) := by
  refine ⟨datagram, by simp, fun origin behind => ⟨rfl, ?_⟩⟩
  rcases Nat.lt_or_eq_of_le fits with short | full
  · have text : cstring ((received mesg datagram fits).data.val ++ behind) =
        cstring datagram.data := by
      simp only [received, Memory.store, Memory.set]
      rw [CBuffer.overwrite_terminated (by rw [mesg.data.property]; exact short),
        List.append_assoc, List.cons_append, CBuffer.cstring_append_zero]
    exact ⟨text ▸ List.prefix_rfl, fun _ => text⟩
  · have data : (received mesg datagram fits).data.val = datagram.data :=
      CBuffer.store_set_full mesg.data full
    refine ⟨data ▸ CBuffer.cstring_prefix .., fun short => ?_⟩
    omega

def ChildPc.fresh : ChildPc → Bool
  | .answering nbytes => nbytes != 0
  | _ => false

/-- The records in the pipe, those in `written` that the child has not read. -/
def InPipe (system : System) (records : List Mesg) : Prop :=
  system.link.arriving = (records.map fun mesg => mesg.bytes.val).flatten ∧
    List.Forall₂ (Carries system.received) (system.written.drop system.reads) records

structure Inv (system : System) : Prop where
  held : system.link.broken = false
  pending : ∃ records, InPipe system records
  rising : system.written.Pairwise (· < ·)
  below : ∀ i ∈ system.written, i < system.received.length
  writing : system.parent = .writing → ∃ last, system.received.length = last + 1 ∧
    Carries system.received last system.parentMesg ∧ ∀ i ∈ system.written, i < last
  count : system.reads ≤ system.written.length
  waiting : system.child.fresh = false →
    system.answers.map Answer.origin = (system.written.take system.reads).map some
  fresh : system.child.fresh = true → ∃ before i,
    system.written.take system.reads = before ++ [i] ∧
    system.answers.map Answer.origin = before.map some ∧
    Carries system.received i system.childMesg

theorem inv_start (kind : Kind) (parentMesg childMesg : Mesg) :
    Inv (start kind parentMesg childMesg) := by
  constructor
  case pending => exact ⟨[], rfl, .nil⟩
  case writing => cases kind <;> simp [start]
  case fresh => cases kind <;> simp [start, ChildPc.fresh]
  all_goals simp [start, Link.fresh]

theorem origins_filterMap {answers : List Answer} {origins : List Nat}
    (same : answers.map Answer.origin = origins.map some) :
    answers.filterMap Answer.origin = origins := by
  have all := congrArg (List.filterMap id) same
  rwa [List.filterMap_map, List.filterMap_map, Function.id_comp, Function.id_comp,
    List.filterMap_some] at all

theorem faithful_append {system : System} (faithful : Faithful system) (datagram : Datagram) :
    Faithful { system with received := system.received ++ [datagram] } := by
  refine ⟨fun answer member => ?_, faithful.order⟩
  obtain ⟨i, old, origin, found, answers⟩ := faithful.known answer member
  have inside := (List.getElem?_eq_some_iff.mp found).1
  exact ⟨i, old, origin, (List.getElem?_append_left inside).trans found, answers⟩

theorem faithful_answer {system : System} (inv : Inv system) (faithful : Faithful system)
    (behind : Bytes) {nbytes : Nat} (here : system.child = .answering nbytes) :
    Faithful { system with
        answers := system.answers ++ [⟨system.origin, system.childMesg.addr,
          cstring (system.childMesg.data.val ++ behind)⟩]
        child := .reading } ↔ nbytes ≠ 0 := by
  constructor
  · rintro ⟨known, order⟩ rfl
    -- the child has nothing new: it answers the last record again, or none
    have same := inv.waiting (by rw [here]; rfl)
    obtain ⟨i, _, again, _, _⟩ := known _ (List.mem_append_right _ (List.mem_singleton_self _))
    have origin : system.origin = some i := again
    have last : i ∈ system.written.take system.reads := List.mem_of_getLast? origin
    simp only [List.filterMap_append, origins_filterMap same, List.filterMap_cons, origin,
      List.filterMap_nil] at order
    exact Nat.lt_irrefl i ((List.pairwise_append.mp order).2.2 i last i (List.mem_singleton_self i))
  · intro some
    obtain ⟨before, i, taken, same, datagram, found, answers⟩ :=
      inv.fresh (by rw [here]; exact bne_iff_ne.mpr some)
    have origin : system.origin = Option.some i := by
      rw [System.origin, taken, List.getLast?_concat]
    constructor
    · intro answer member
      rcases List.mem_append.mp member with old | new
      · exact faithful.known answer old
      · rw [List.mem_singleton.mp new]
        exact ⟨i, datagram, origin, found, answers _ behind⟩
    · simp only [List.filterMap_append, origins_filterMap same, List.filterMap_cons, origin,
        List.filterMap_nil, ← taken]
      exact inv.rising.sublist (List.take_sublist ..)

theorem faithful_turn {system next : System} {event : Event} {made : List Call}
    (inv : Inv system) (faithful : Faithful system) (turn : Turn system event next made) :
    Faithful next ↔ Fed system event := by
  cases turn with
  | answers behind nbytes here =>
      rw [faithful_answer inv faithful behind here, Fed, here, ne_eq, ne_eq,
        ChildPc.answering.injEq]
  | receives datagram fits =>
      exact iff_of_true ⟨(faithful_append faithful datagram).known, faithful.order⟩ trivial
  -- neither a datagram nor an answer
  | _ => exact iff_of_true ⟨faithful.known, faithful.order⟩ trivial

/-- The child takes out the first record of the pipe, or nothing. -/
theorem inPipe_read {system : System} {records : List Mesg} (pending : InPipe system records)
    {data : Bytes} {link : Link UInt8} (piece : data = system.link.arriving.take RECORD)
    (got : system.link.read RECORD (some data) = some link) :
    (data = [] ∧ records = [] ∧ link.arriving = []) ∨
      ∃ i mesg rest, data = mesg.bytes.val ∧
        system.written.drop system.reads = i :: system.written.drop (system.reads + 1) ∧
        Carries system.received i mesg ∧
        link.arriving = (rest.map fun mesg => mesg.bytes.val).flatten ∧
        List.Forall₂ (Carries system.received) (system.written.drop (system.reads + 1)) rest := by
  obtain ⟨bytes, each⟩ := pending
  have split := Link.read_arriving got
  cases records with
  | nil =>
      rw [bytes, List.map_nil, List.flatten_nil] at piece split
      rw [List.take_nil] at piece
      subst piece
      exact .inl ⟨rfl, rfl, split.symm⟩
  | cons mesg rest =>
      rw [bytes, List.map_cons, List.flatten_cons] at piece split
      rw [List.take_left' mesg.bytes.property] at piece
      subst piece
      obtain ⟨i, later, carries, others, unread⟩ := List.forall₂_cons_right_iff.mp each
      have tail : later = system.written.drop (system.reads + 1) := by
        have next := congrArg List.tail unread
        rwa [List.tail_drop, List.tail_cons, eq_comm] at next
      rw [tail] at others unread
      exact .inr ⟨i, mesg, rest, rfl, unread, carries, (List.append_cancel_left split).symm, others⟩

theorem inv_received {system : System} (inv : Inv system) (datagram : Datagram)
    (fits : datagram.data.length ≤ MAX_BUFSZ) :
    Inv { system with
      parentMesg := received system.parentMesg datagram fits
      received := system.received ++ [datagram]
      stores := system.stores ++ [datagram.data.length]
      parent := .writing } := by
  obtain ⟨held, ⟨records, bytes, each⟩, rising, below, writing, count, waiting, fresh⟩ := inv
  constructor
  case held => exact held
  case pending =>
      exact ⟨records, bytes, List.Forall₂.imp
        (fun _ _ carries => carries_append carries datagram) each⟩
  case rising => exact rising
  case below =>
      intro i member
      have old := below i member
      simp only [List.length_append, List.length_singleton]
      omega
  case writing =>
      exact fun _ => ⟨system.received.length, by simp,
        carries_received system.received system.parentMesg datagram fits, below⟩
  case count => exact count
  case waiting => exact waiting
  case fresh =>
      intro unanswered
      obtain ⟨before, i, taken, same, carries⟩ := fresh unanswered
      exact ⟨before, i, taken, same, carries_append carries datagram⟩

theorem inv_written {system : System} (inv : Inv system) (here : system.parent = .writing) :
    Inv { system with
      link := system.link.send system.parentMesg.bytes.val
      written := system.written ++ [system.received.length - 1]
      parent := .receiving } := by
  obtain ⟨held, ⟨records, bytes, each⟩, rising, below, writing, count, waiting, fresh⟩ := inv
  obtain ⟨last, length, carries, less⟩ := writing here
  have index : system.received.length - 1 = last := by omega
  constructor
  case held => rw [Link.send_broken, held]
  case pending =>
      refine ⟨records ++ [system.parentMesg], ?_, ?_⟩
      · rw [Link.send_arriving held, bytes]
        simp
      · rw [List.drop_append_of_le_length count, index]
        exact List.rel_append each (.cons carries .nil)
  case rising =>
      rw [index]
      exact List.pairwise_append.mpr ⟨rising, List.pairwise_singleton .., by simpa using less⟩
  case below =>
      intro i member
      have bound : system.received.length - 1 < system.received.length := by omega
      rcases List.mem_append.mp member with old | new
      · exact below i old
      · rw [List.mem_singleton.mp new]
        exact bound
  case writing => exact nofun
  case count =>
      rw [List.length_append]
      exact Nat.le_add_right_of_le count
  case waiting =>
      rw [List.take_append_of_le_length count]
      exact waiting
  case fresh =>
      rw [List.take_append_of_le_length count]
      exact fresh

theorem inv_read {system : System} (inv : Inv system) {data : Bytes}
    (fits : data.length ≤ RECORD) {link : Link UInt8} (here : system.child = .reading)
    (piece : data = system.link.arriving.take RECORD)
    (got : system.link.read RECORD (some data) = some link) :
    Inv { system with
      link := link
      childMesg := system.childMesg.load data fits
      reads := if data = [] then system.reads else system.reads + 1
      child := .answering data.length } := by
  obtain ⟨held, ⟨records, bytes, each⟩, rising, below, writing, count, waiting, fresh⟩ := inv
  have same := waiting (by rw [here]; rfl)
  have still := (Link.read_sent got).2.2.trans held
  rcases inPipe_read ⟨bytes, each⟩ piece got with
    ⟨rfl, rfl, empty⟩ | ⟨i, mesg, rest, whole, unread, carries, left, others⟩
  · exact ⟨still, ⟨[], empty, each⟩, rising, below, writing, count, fun _ => same, nofun⟩
  · have length : data.length = RECORD := whole ▸ mesg.bytes.property
    have more : data ≠ [] := by
      rintro rfl
      cases length
    have inside : system.reads < system.written.length := by
      have some := congrArg List.length unread
      rw [List.length_drop, List.length_cons] at some
      omega
    simp only [if_neg more, Mesg.load_bytes system.childMesg fits mesg whole, length]
    refine ⟨still, ⟨rest, left, others⟩, rising, below, writing, inside, nofun, fun _ => ?_⟩
    refine ⟨system.written.take system.reads, i, ?_, same, carries⟩
    have next : system.written[system.reads]? = some i := by
      rw [← List.head?_drop, unread, List.head?_cons]
    rw [List.take_add_one, next, Option.toList_some]

theorem inv_turn {system next : System} {event : Event} {made : List Call} (inv : Inv system)
    (fed : Fed system event) (turn : Turn system event next made) : Inv next := by
  have ⟨held, pending, rising, below, writing, count, waiting, fresh⟩ := inv
  cases turn with
  | opens waits =>
      refine ⟨held, pending, rising, below, nofun, count, fun _ => ?_, nofun⟩
      exact waiting (by rw [waits]; rfl)
  | receives datagram fits => exact inv_received inv datagram fits
  | writes here => exact inv_written inv here
  | drops =>
      exact ⟨held, pending, rising, below, nofun, count, waiting, fresh⟩
  | exits =>
      exact ⟨held, pending, rising, below, nofun, count, waiting, fresh⟩
  | reads data fits link here piece got => exact inv_read inv fits here piece got
  | readFails here =>
      have same := waiting (by rw [here]; rfl)
      exact ⟨held, pending, rising, below, writing, count, fun _ => same, nofun⟩
  | answers behind nbytes here =>
      have some : nbytes ≠ 0 := fun none => fed (by rw [here, none])
      obtain ⟨before, i, taken, same, _⟩ := fresh (by rw [here]; exact bne_iff_ne.mpr some)
      refine ⟨held, pending, rising, below, writing, count, fun _ => ?_, nofun⟩
      simp [taken, same, System.origin]

/-- In either program the answers are faithful all through a run exactly when
the child never answers after a read that returned 0. -/
theorem answers_faithful_iff (kind : Kind) (parentMesg childMesg : Mesg) (events : List Event)
    (system : System) (calls : List Call)
    (ran : exec step (start kind parentMesg childMesg) events = some (system, calls)) :
    Throughout step Faithful (start kind parentMesg childMesg) events ↔
      Along step Fed (start kind parentMesg childMesg) events := by
  refine Machine.throughout_iff_along Inv ?_ ?_ (inv_start kind parentMesg childMesg) ?_ ran
  · intro state event next made inv faithful still taken
    have turn := turn_of_step taken
    exact inv_turn inv ((faithful_turn inv faithful turn).mp still) turn
  · intro state event next made inv faithful taken
    exact faithful_turn inv faithful (turn_of_step taken)
  · exact ⟨by simp [start], by simp [start]⟩

def blank : Mesg := ⟨.zeros _, .zeros _⟩

def oneAnswer : List Event :=
  [.recvfrom ⟨.zeros _, [97]⟩, .write true, .read, .answer [], .exit, .read]

/-- Then the child answers again. -/
def twoAnswers : List Event := oneAnswer ++ [.answer []]

theorem answers_faithful_oneAnswer :
    Throughout step Faithful (start .pipe blank blank) oneAnswer := by
  have runs : (exec step (start .pipe blank blank) oneAnswer).isSome := by decide +kernel
  obtain ⟨system, calls, ran⟩ := Machine.exec_of_isSome runs
  exact (answers_faithful_iff .pipe blank blank oneAnswer system calls ran).mpr
    ((Machine.misses_zero_iff ..).mp (by decide +kernel))

theorem answers_twice_twoAnswers :
    ∃ system calls, exec step (start .pipe blank blank) twoAnswers = some (system, calls) ∧
      ¬ Faithful system := by
  have origins : (exec step (start .pipe blank blank) twoAnswers).map
      (fun result => result.1.answers.filterMap Answer.origin) = some [0, 0] := by decide +kernel
  obtain ⟨⟨system, calls⟩, ran, same⟩ := Option.map_eq_some_iff.mp origins
  refine ⟨system, calls, ran, fun faithful => ?_⟩
  have order := faithful.order
  rw [same] at order
  revert order
  decide

end NetworkTest.PipeEcho
