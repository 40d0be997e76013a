import Gossveil.Call

namespace Gossveil

/-!
# Reading values from the front of a string

A scan is a call whose state is what it has not read yet.  `Reads` says that a
scan takes a written value off the front, whatever follows; `Takes` says that
whatever a scan returns stood written at the front.

Nothing here mentions the program; the scans and their rules serve any format
that is read in one pass.
-/

/-- A call on what is left of a string. -/
abbrev Scan (β ε α : Type) : Type :=
  Call (List β) ε α

namespace Scan

variable {β ε α γ : Type}

/-- The next `count` items, or the given error. -/
def take (fault : ε) (count : Nat) : Scan β ε (List β) :=
  fun ahead =>
    if count ≤ ahead.length then
      (.ok (ahead.take count), ahead.drop count)
    else
      (.error fault, ahead)

/-- `count` values in a row. -/
def times (scan : Scan β ε α) : Nat → Scan β ε (List α)
  | 0 => pure []
  | count + 1 => do
      let value ← scan
      let values ← times scan count
      return value :: values

/-- What a scan of a whole string returns; what it leaves is ignored. -/
def run (scan : Scan β ε α) (data : List β) : Outcome ε α :=
  (scan data).1

/-! ## Reading back -/

/-- The scan takes `written` off the front and returns `value`. -/
def Reads (scan : Scan β ε α) (written : List β) (value : α) : Prop :=
  ∀ rest, scan (written ++ rest) = (.ok value, rest)

namespace Reads

variable {scan : Scan β ε α} {value : α}

theorem pure (value : α) :
    Reads (pure value : Scan β ε α) [] value :=
  fun _ => rfl

theorem lift
    {outcome : Outcome ε α}
    (returns : outcome = .ok value) :
    Reads (liftM outcome : Scan β ε α) [] value := by
  subst returns
  exact fun _ => rfl

/-- As many items as are asked for are read back. -/
theorem take
    (fault : ε)
    {count : Nat}
    {written : List β}
    (length : written.length = count) :
    Reads (Scan.take fault count) written written := by
  intro rest
  subst length
  simp [Scan.take]

/-- Reads one after the other read what is written one behind the other. -/
theorem bind
    {next : α → Scan β ε γ}
    {front back : List β}
    {result : γ}
    (first : Reads scan front value)
    (second : Reads (next value) back result) :
    Reads (scan >>= next) (front ++ back) result := by
  intro rest
  rw [List.append_assoc, Call.bind_of_ok (first (back ++ rest)), second rest]

/-- A part that reads nothing leaves the string to the next one. -/
theorem after
    {next : α → Scan β ε γ}
    {written : List β}
    {result : γ}
    (first : Reads scan [] value)
    (second : Reads (next value) written result) :
    Reads (scan >>= next) written result :=
  first.bind second

/-- A part whose value is given back changed. -/
theorem map
    {next : α → Scan β ε γ}
    {written : List β}
    {result : γ}
    (first : Reads scan written value)
    (second : Reads (next value) [] result) :
    Reads (scan >>= next) written result := by
  simpa using first.bind second

/-- Items written one after the other read back as their values. -/
theorem times
    {ι : Type}
    {write : ι → List β}
    {read : ι → α}
    {items : List ι}
    (each : ∀ item ∈ items, Reads scan (write item) (read item)) :
    Reads (Scan.times scan items.length) (items.flatMap write)
      (items.map read) := by
  induction items with
  | nil =>
      exact pure []
  | cons item items inductionHypothesis =>
      have first := each item List.mem_cons_self
      have rest :=
        inductionHypothesis fun item member =>
          each item (List.mem_cons_of_mem _ member)
      exact first.bind (rest.map (pure _))

end Reads

/-! ## What was read -/

/--
The scan never traps, and what it returns stood at the front in a form that
`Shape` allows.
-/
structure Takes
    (scan : Scan β ε α)
    (Shape : α → List β → Prop) :
    Prop where
  returned :
    ∀ {ahead value rest},
      scan ahead = (.ok value, rest) →
      ∃ front, ahead = front ++ rest ∧ Shape value front
  noTrap : ∀ ahead, (scan ahead).1 ≠ .trap

namespace Takes

variable {scan : Scan β ε α} {Shape : α → List β → Prop}

/-- What is known of a scan may be weakened. -/
theorem imp
    {Weaker : α → List β → Prop}
    (takes : Takes scan Shape)
    (weaken : ∀ value front, Shape value front → Weaker value front) :
    Takes scan Weaker where
  returned := by
    intro ahead value rest returned
    obtain ⟨front, shape, holds⟩ := takes.returned returned
    exact ⟨front, shape, weaken value front holds⟩
  noTrap := takes.noTrap

theorem pure (value : α) :
    Takes (pure value : Scan β ε α) fun result front =>
      result = value ∧ front = [] where
  returned := by
    rintro ahead _ _ ⟨⟩
    exact ⟨[], rfl, rfl, rfl⟩
  noTrap := by
    intro ahead
    simp

theorem lift
    {outcome : Outcome ε α}
    (noTrap : outcome ≠ .trap) :
    Takes (liftM outcome : Scan β ε α) fun result front =>
      outcome = .ok result ∧ front = [] where
  returned := by
    intro ahead value rest returned
    obtain ⟨isValue, rfl⟩ := Prod.mk.inj returned
    exact ⟨[], rfl, isValue, rfl⟩
  noTrap := fun _ => noTrap

/-- A take returns what it takes. -/
theorem take (fault : ε) (count : Nat) :
    Takes (Scan.take fault count : Scan β ε (List β)) fun result front =>
      result = front ∧ front.length = count where
  returned := by
    intro ahead value rest returned
    simp only [Scan.take] at returned
    split_ifs at returned with fits
    · obtain ⟨isValue, rfl⟩ := Prod.mk.inj returned
      cases isValue
      exact ⟨ahead.take count, (List.take_append_drop count ahead).symm,
        rfl, by simpa using fits⟩
    · cases (Prod.mk.inj returned).1
  noTrap := by
    intro ahead
    simp only [Scan.take]
    split_ifs <;> simp

/-- What two scans take, one after the other. -/
theorem bind
    {next : α → Scan β ε γ}
    {Next : α → γ → List β → Prop}
    (first : Takes scan Shape)
    (second :
      ∀ value front, Shape value front → Takes (next value) (Next value)) :
    Takes (scan >>= next) fun result written =>
      ∃ value front back,
        written = front ++ back ∧ Shape value front ∧
          Next value result back where
  returned := by
    intro ahead result rest returned
    obtain ⟨value, between, begun, goesOn⟩ := Call.bind_eq_ok.mp returned
    obtain ⟨front, rfl, shape⟩ := first.returned begun
    obtain ⟨back, rfl, next⟩ := (second value front shape).returned goesOn
    exact ⟨front ++ back, (List.append_assoc ..).symm,
      value, front, back, rfl, shape, next⟩
  noTrap := by
    intro ahead traps
    rcases Call.bind_eq_trap.mp (Prod.ext traps rfl) with
      early | ⟨value, between, begun, late⟩
    · exact first.noTrap ahead (congrArg Prod.fst early)
    · obtain ⟨front, _, shape⟩ := first.returned begun
      exact (second value front shape).noTrap between
        (congrArg Prod.fst late)

/-- Values in a row stood there one after the other. -/
theorem times
    {write : α → List β}
    {Allowed : α → Prop}
    (takes :
      Takes scan fun value front => Allowed value ∧ front = write value)
    (count : Nat) :
    Takes (Scan.times scan count) fun values front =>
      values.length = count ∧ (∀ value ∈ values, Allowed value) ∧
        front = values.flatMap write := by
  induction count with
  | zero =>
      apply (pure []).imp
      rintro _ _ ⟨rfl, rfl⟩
      simp
  | succ count inductionHypothesis =>
      apply (takes.bind fun value _ _ =>
        inductionHypothesis.bind fun values _ _ => pure (value :: values)).imp
      rintro _ _ ⟨value, _, _, rfl, ⟨allowed, rfl⟩,
        values, _, _, rfl, ⟨length, restAllowed, rfl⟩, rfl, rfl⟩
      simp [length, allowed]
      exact restAllowed

/-- What a scan of a whole string returns stood at its front. -/
theorem run
    (takes : Takes scan Shape)
    {data : List β}
    {value : α}
    (returned : scan.run data = .ok value) :
    ∃ front rest, data = front ++ rest ∧ Shape value front := by
  obtain ⟨front, shape, holds⟩ :=
    takes.returned (show scan data = (.ok value, _) from Prod.ext returned rfl)
  exact ⟨front, _, shape, holds⟩

end Takes

end Scan

end Gossveil
