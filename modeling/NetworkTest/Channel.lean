import Mathlib.Data.List.Basic

/-!
One direction of a stream connection. Bytes arrive in the order in which they
were sent, none lost, until the connection is cut; after that nothing more
arrives than what already has. A link carries the proof of this with it.
-/

namespace NetworkTest.Channel

universe u v w
variable {α : Type u}

/-- `sent` is what the sender handed over while the connection held, `taken`
what the receiver has got of it, and `arriving` what it can still get. -/
structure Link (α : Type u) where
  sent : List α
  taken : List α
  arriving : List α
  closed : Bool
  broken : Bool
  ordered : taken ++ arriving <+: sent
  whole : broken = false → taken ++ arriving = sent

namespace Link

def fresh : Link α where
  sent := []
  taken := []
  arriving := []
  closed := false
  broken := false
  ordered := List.prefix_refl _
  whole := fun _ => rfl

def send (link : Link α) (data : List α) : Link α :=
  match held : link.broken with
  | true => link
  | false =>
      { link with
        sent := link.sent ++ data
        arriving := link.arriving ++ data
        ordered :=
          ⟨[], by rw [List.append_nil, ← List.append_assoc, link.whole held]⟩
        whole := fun _ => by
          rw [← List.append_assoc, link.whole held] }

def close (link : Link α) : Link α := { link with closed := true }

/-- The connection ends; of what was under way, `kept` items have arrived. -/
def cut (link : Link α) (kept : Nat) : Link α :=
  { link with
    arriving := link.arriving.take kept
    broken := true
    ordered := by
      have shorter : link.arriving.take kept <+: link.arriving := List.take_prefix ..
      exact (List.prefix_append_right_inj link.taken |>.mpr shorter).trans link.ordered
    whole := fun held => by cases held }

/-- The receiver gets the next `count` items, or all that are left. -/
def take (link : Link α) (count : Nat) : Link α :=
  { link with
    taken := link.taken ++ link.arriving.take count
    arriving := link.arriving.drop count
    ordered := by simpa using link.ordered
    whole := fun held => by simpa using link.whole held }

/-- A receive that waits for all `count` items: it returns fewer only at the
end of the stream, and fails (`none`) only on a cut connection. -/
def recvAll (link : Link α) (count : Nat) [DecidableEq α] : Option (List α) → Option (Link α)
  | some data =>
      if data = link.arriving.take count ∧
          (count ≤ link.arriving.length ∨ link.closed ∨ link.broken) then
        some (link.take count)
      else none
  | none => if link.broken then some link else none

/-- A receive that returns as soon as it has something: at most `count` items,
none only at the end of the stream. -/
def read (link : Link α) (count : Nat) [DecidableEq α] : Option (List α) → Option (Link α)
  | some data =>
      if data = link.arriving.take data.length ∧ data.length ≤ count ∧
          (data = [] → link.arriving = [] ∧ (link.closed ∨ link.broken)) then
        some (link.take data.length)
      else none
  | none => if link.broken then some link else none

@[simp] theorem send_broken (link : Link α) (data : List α) :
    (link.send data).broken = link.broken := by
  unfold send
  split <;> simp_all

@[simp] theorem send_closed (link : Link α) (data : List α) :
    (link.send data).closed = link.closed := by
  unfold send
  split <;> simp_all

@[simp] theorem send_taken (link : Link α) (data : List α) :
    (link.send data).taken = link.taken := by
  unfold send
  split <;> simp_all

theorem send_of_broken {link : Link α} (broken : link.broken = true) (data : List α) :
    link.send data = link := by
  unfold send
  split <;> simp_all

theorem send_sent {link : Link α} (held : link.broken = false) (data : List α) :
    (link.send data).sent = link.sent ++ data := by
  unfold send
  split <;> simp_all

theorem send_arriving {link : Link α} (held : link.broken = false) (data : List α) :
    (link.send data).arriving = link.arriving ++ data := by
  unfold send
  split <;> simp_all

theorem foldl_view {Act : Type v} {Shown : Type w} (view : Link α → Shown)
    (act : Link α → Act → Link α) (same : ∀ link made, view (act link made) = view link)
    (link : Link α) (acts : List Act) : view (acts.foldl act link) = view link := by
  induction acts generalizing link with
  | nil => rfl
  | cons made acts ih => rw [List.foldl_cons, ih, same]

/-- No more will come. -/
def Dead (link : Link α) : Prop := link.broken = true ∧ link.arriving = []

theorem dead_cut {link : Link α} (dead : link.Dead) (kept : Nat) : (link.cut kept).Dead := by
  simp [Dead, cut, dead.2]

section Receive

variable [DecidableEq α] {link next : Link α} {count : Nat} {data : List α}

theorem recvAll_data (got : link.recvAll count (some data) = some next) :
    next = link.take count ∧ data = link.arriving.take count ∧
      (count ≤ link.arriving.length ∨ link.closed = true ∨ link.broken = true) := by
  simp only [recvAll, Option.ite_none_right_eq_some, Option.some.injEq] at got
  obtain ⟨⟨same, ready⟩, taken⟩ := got
  exact ⟨taken.symm, same, ready⟩

theorem recvAll_error (got : link.recvAll count none = some next) :
    next = link ∧ link.broken = true := by
  simp only [recvAll, Option.ite_none_right_eq_some, Option.some.injEq] at got
  exact ⟨got.2.symm, got.1⟩

theorem recvAll_held (held : link.broken = false) : link.recvAll count none ≠ some next := by
  simp [recvAll, held]

theorem recvAll_length (got : link.recvAll count (some data) = some next) :
    data.length ≤ count := by
  obtain ⟨_, rfl, _⟩ := recvAll_data got
  exact List.length_take_le ..

theorem recvAll_taken (got : link.recvAll count (some data) = some next) :
    next.taken = link.taken ++ data := by
  obtain ⟨rfl, rfl, _⟩ := recvAll_data got
  rfl

theorem recvAll_sent {result : Option (List α)} (got : link.recvAll count result = some next) :
    next.sent = link.sent ∧ next.closed = link.closed ∧ next.broken = link.broken := by
  cases result with
  | none =>
      obtain ⟨rfl, _⟩ := recvAll_error got
      exact ⟨rfl, rfl, rfl⟩
  | some data =>
      obtain ⟨rfl, _⟩ := recvAll_data got
      exact ⟨rfl, rfl, rfl⟩

/-- Whatever the sender's stream is going to be, a receive gets the piece of
it that is next. -/
theorem recvAll_piece {stream : List α} (sends : link.sent <+: stream)
    (got : link.recvAll count (some data) = some next) :
    data <+: stream.drop link.taken.length := by
  obtain ⟨rfl, rfl, _⟩ := recvAll_data got
  obtain ⟨rest, rfl⟩ := link.ordered.trans sends
  rw [List.append_assoc, List.drop_left]
  exact (List.take_prefix ..).trans (List.prefix_append ..)

theorem recvAll_short (got : link.recvAll count (some data) = some next)
    (short : data.length < count) :
    next.arriving = [] ∧ (link.closed = true ∨ link.broken = true) := by
  obtain ⟨rfl, rfl, ready⟩ := recvAll_data got
  rw [List.length_take] at short
  have few : link.arriving.length < count := by omega
  exact ⟨List.drop_of_length_le (Nat.le_of_lt few), ready.resolve_left (by omega)⟩

theorem recvAll_dead (dead : link.Dead) {result : Option (List α)}
    (got : link.recvAll count result = some next) :
    next.Dead ∧ (result = none ∨ result = some []) := by
  cases result with
  | none =>
      obtain ⟨rfl, _⟩ := recvAll_error got
      exact ⟨dead, .inl rfl⟩
  | some data =>
      obtain ⟨rfl, rfl, _⟩ := recvAll_data got
      exact ⟨⟨dead.1, by simp [take, dead.2]⟩, .inr (by rw [dead.2, List.take_nil])⟩

theorem read_data (got : link.read count (some data) = some next) :
    next = link.take data.length ∧ data = link.arriving.take data.length ∧
      data.length ≤ count ∧
      (data = [] → link.arriving = [] ∧ (link.closed = true ∨ link.broken = true)) := by
  simp only [read, Option.ite_none_right_eq_some, Option.some.injEq] at got
  obtain ⟨⟨same, fits, ended⟩, taken⟩ := got
  exact ⟨taken.symm, same, fits, ended⟩

theorem read_error (got : link.read count none = some next) :
    next = link ∧ link.broken = true := by
  simp only [read, Option.ite_none_right_eq_some, Option.some.injEq] at got
  exact ⟨got.2.symm, got.1⟩

theorem read_held (held : link.broken = false) : link.read count none ≠ some next := by
  simp [read, held]

theorem read_taken (got : link.read count (some data) = some next) :
    next.taken = link.taken ++ data := by
  obtain ⟨rfl, same, _⟩ := read_data got
  simp only [take]
  rw [← same]

theorem read_arriving (got : link.read count (some data) = some next) :
    link.arriving = data ++ next.arriving := by
  obtain ⟨rfl, same, _⟩ := read_data got
  have split := List.take_append_drop data.length link.arriving
  rw [← same] at split
  exact split.symm

theorem read_sent {result : Option (List α)} (got : link.read count result = some next) :
    next.sent = link.sent ∧ next.closed = link.closed ∧ next.broken = link.broken := by
  cases result with
  | none =>
      obtain ⟨rfl, _⟩ := read_error got
      exact ⟨rfl, rfl, rfl⟩
  | some data =>
      obtain ⟨rfl, _⟩ := read_data got
      exact ⟨rfl, rfl, rfl⟩

theorem read_one {result : Option (List α)} (held : link.broken = false)
    (open_ : link.closed = false) (got : link.read 1 result = some next) :
    ∃ item, result = some [item] ∧ link.arriving = item :: next.arriving ∧
      next.broken = false ∧ next.closed = false := by
  obtain ⟨_, closed, broken⟩ := read_sent got
  cases result with
  | none => exact absurd got (read_held held)
  | some data =>
      obtain ⟨_, _, fits, last⟩ := read_data got
      match data, fits with
      | [], _ =>
          have ended := (last rfl).2
          simp [held, open_] at ended
      | [item], _ =>
          exact ⟨item, rfl, read_arriving got, broken.trans held, closed.trans open_⟩

theorem read_head {item : α} {rest : List α} (arriving : link.arriving = item :: rest) :
    link.read 1 (some [item]) = some (link.take 1) ∧ (link.take 1).arriving = rest := by
  simp [read, take, arriving]

end Receive

end Link

end NetworkTest.Channel
