/-!
Reading from front to back. Where tokens break their grammar, the part in front of
the break is kept: what is asked of a document may fail on that part, and then that
failure comes before the break.
-/

namespace Protoscribe.Decode

/-- What the front of some tokens reads as. -/
inductive Scan (τ α : Type) where
  /-- A value, and the tokens behind it. -/
  | whole (value : α) (rest : List τ)
  /-- The part of a value in front of the place where the grammar breaks. -/
  | broken (part : α)
  deriving Repr

namespace Scan

variable {τ α β : Type}

def map (make : α → β) : Scan τ α → Scan τ β
  | .whole value rest => .whole (make value) rest
  | .broken part => .broken (make part)

/-- An item and those behind it. A list that breaks inside an item has `stop` as
its last one, so that nobody takes it for a list that ends there. -/
def cons (first : Scan τ α) (stop : α) (others : List τ → Scan τ (List α)) :
    Scan τ (List α) :=
  match first with
  | .whole item rest => (others rest).map (item :: ·)
  | .broken part => .broken [part, stop]

/-- A value and the one behind it, which is `stop` where the first breaks. -/
def pair (first : Scan τ α) (stop : β) (second : List τ → Scan τ β) : Scan τ (α × β) :=
  match first with
  | .whole value rest => (second rest).map (value, ·)
  | .broken part => .broken (part, stop)

/-- The value, or the part of it that is there. -/
def held : Scan τ α → α
  | .whole value _ => value
  | .broken part => part

/-- The value of a document, behind which only certain tokens may stand. -/
def last (ends : List τ → Bool) : Scan τ α → Except α α
  | .whole value rest => if ends rest then .ok value else .error value
  | .broken part => .error part

theorem map_whole (make : α → β) (value : α) (rest : List τ) :
    (whole value rest).map make = .whole (make value) rest := rfl

@[simp] theorem held_map (make : α → β) (scan : Scan τ α) :
    (scan.map make).held = make scan.held := by
  cases scan <;> rfl

@[simp] theorem cons_whole (item stop : α) (rest : List τ)
    (others : List τ → Scan τ (List α)) :
    (whole item rest).cons stop others = (others rest).map (item :: ·) := rfl

@[simp] theorem pair_whole (value : α) (stop : β) (rest : List τ)
    (second : List τ → Scan τ β) :
    (whole value rest).pair stop second = (second rest).map (value, ·) := rfl

theorem last_whole {ends : List τ → Bool} {value : α} {rest : List τ}
    (h : ends rest = true) : (whole value rest).last ends = .ok value := by
  rw [last, if_pos h]

end Scan

variable {τ δ ε α β : Type}

/-- Another wording of failures changes no value. -/
theorem mapError_eq_ok_iff {change : ε → δ} {reading : Except ε α} {value : α} :
    reading.mapError change = .ok value ↔ reading = .ok value := by
  cases reading with
  | ok found =>
      constructor
      · intro h
        cases h
        rfl
      · intro h
        cases h
        rfl
  | error failure =>
      constructor
      · intro h
        cases h
      · intro h
        cases h

/-- Reads a typed value off a document. Of a broken one the part in front of the
break is read first, and what fails there is the failure of the whole. -/
def readScanned (malformed : ε) (read : δ → Except ε α) : Except δ δ → Except ε α
  | .ok whole => read whole
  | .error part => do
      let _ ← read part
      throw malformed

/-- A whole document is read as it is. -/
theorem readScanned_of_toOption {malformed : ε} {read : δ → Except ε α}
    {scanned : Except δ δ} {whole : δ} (h : scanned.toOption = some whole) :
    readScanned malformed read scanned = read whole := by
  cases scanned with
  | ok found =>
      cases h
      rfl
  | error part => cases h

/-- Only whole documents give a value. -/
theorem readScanned_eq_ok_iff {malformed : ε} {read : δ → Except ε α} {scanned : Except δ δ}
    {value : α} :
    readScanned malformed read scanned = .ok value ↔
      ∃ whole, scanned.toOption = some whole ∧ read whole = .ok value := by
  cases scanned with
  | ok whole => simp [readScanned, Except.toOption]
  | error part =>
      cases hread : read part <;>
        simp [readScanned, hread, bind, Except.bind, Except.toOption]

/-- What fails on the part that is there fails, whether the grammar breaks or not. -/
theorem readScanned_of_held {malformed error : ε} {read : δ → Except ε α} {scan : Scan τ δ}
    (h : read scan.held = .error error) (ends : List τ → Bool) :
    readScanned malformed read (scan.last ends) = .error error := by
  cases scan with
  | whole value rest =>
      rw [Scan.held] at h
      rw [Scan.last]
      split
      · exact h
      · rw [readScanned, h]
        rfl
  | broken part =>
      rw [Scan.held] at h
      rw [Scan.last, readScanned, h]
      rfl

/-- Two readings that differ in the value only differ so on every document. -/
theorem readScanned_map {malformed : ε} {read : δ → Except ε α} {other : δ → Except ε β}
    {make : α → β} (h : ∀ part, other part = (read part).map make) (scanned : Except δ δ) :
    readScanned malformed other scanned = (readScanned malformed read scanned).map make := by
  cases scanned with
  | ok whole => exact h whole
  | error part =>
      rw [readScanned, readScanned, h]
      cases read part <;> rfl

end Protoscribe.Decode
