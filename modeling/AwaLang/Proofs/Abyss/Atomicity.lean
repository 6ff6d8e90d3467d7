import AwaLang.Proofs.Abyss.Surround

/-!
The operations of the abyss as they go, step after step on an abyss that each step changes. Several
take bubbles off before they are done. Still an operation either does all that it is there for or
leaves the abyss as it was: it fails if there are fewer bubbles than it needs, and then before it
has taken any.
-/

namespace AwaLang

/-- The abyss with a bubble put in at an index, which counts from the bottom. -/
def Abyss.insertAt (abyss : Abyss) (index : Nat) (b : Bubble) : Abyss :=
  ⟨(abyss.bottomUp.insertIdx index b).reverse⟩

/-- Steps on an abyss, which keeps what they have made of it also where one of them fails. -/
abbrev InPlace := EStateM Underflow Abyss

namespace InPlace

def require (needed : Nat) : InPlace Unit := do
  let abyss ← get
  if abyss.size < needed then throw ⟨needed, abyss.size⟩

def push (b : Bubble) : InPlace Unit := modify (·.push b)

def pop : InPlace Bubble := do
  match (← get).topFirst with
  | top :: below =>
    set (Abyss.mk below)
    return top
  | [] => throw ⟨1, 0⟩

def peek : InPlace Bubble := do
  match (← get).topFirst with
  | top :: _ => return top
  | [] => throw ⟨1, 0⟩

def peekTwo : InPlace (Bubble × Bubble) := do
  require 2
  let abyss ← get
  match abyss.topFirst with
  | a :: b :: _ => return (a, b)
  | _ => throw ⟨2, abyss.size⟩

def popTwo : InPlace (Bubble × Bubble) := do
  require 2
  let a ← pop
  let b ← pop
  return (a, b)

def submerge (depth : Nat) : InPlace Unit := do
  let top ← pop
  modify fun rest => rest.insertAt (if depth = 0 then 0 else rest.size - depth) top

def split : InPlace Unit := do
  let top ← pop
  top.released.forM push

def duplicate : InPlace Unit := do
  let top ← peek
  push top

def gather : Nat → Bubble → InPlace Bubble
  | 0, gathered => return gathered
  | count + 1, gathered => do
    let b ← pop
    gather count (gathered.merge b)

def surround (count : Nat) : InPlace Unit := do
  require count
  let gathered ← gather count (.double [])
  push (.ofList gathered.released)

def merge : InPlace Unit := do
  let (a, b) ← popTwo
  push (a.merge b)

def count : InPlace Unit := do
  let top ← peek
  push (.scalar top.size)

end InPlace

namespace Abyss

variable {α : Type} {abyss : Abyss}

def settle (abyss : Abyss) : Except Underflow (α × Abyss) → EStateM.Result Underflow Abyss α
  | .ok (a, after) => .ok a after
  | .error underflow => .error underflow abyss

theorem settle_eq_ok_iff {result : Except Underflow (α × Abyss)} {a : α} {after : Abyss} :
    abyss.settle result = .ok a after ↔ result = .ok (a, after) := by
  cases result <;> simp [settle, Prod.ext_iff]

theorem settle_eq_error_iff {result : Except Underflow (α × Abyss)} {underflow : Underflow}
    {after : Abyss} :
    abyss.settle result = .error underflow after ↔
      result = .error underflow ∧ after = abyss := by
  cases result <;> simp [settle, eq_comm]

theorem insertIdx_length (lower upper : List Bubble) (b : Bubble) :
    (lower ++ upper).insertIdx lower.length b = lower ++ b :: upper := by
  induction lower with
  | nil => rfl
  | cons first lower ih => exact congrArg (first :: ·) ih

theorem insertAt_size_sub (rest : Abyss) (depth : Nat) (b : Bubble) :
    rest.insertAt (rest.size - depth) b =
      ⟨rest.topFirst.take depth ++ b :: rest.topFirst.drop depth⟩ := by
  have index : rest.size - depth = (rest.lower depth).length := by simp [lower, size]
  rw [insertAt, bottomUp_eq_lower_append_upper rest depth, index, insertIdx_length]
  simp [lower, upper]

theorem insertAt_zero (rest : Abyss) (b : Bubble) : rest.insertAt 0 b = ⟨rest.topFirst ++ [b]⟩ := by
  simp [insertAt, bottomUp]

end Abyss

namespace InPlace

variable {abyss left : Abyss} {count : Nat} {top gathered : Bubble}

theorem run_submerge (depth : Nat) (abyss : Abyss) :
    (submerge depth).run abyss = abyss.settle ((abyss.submerge depth).map ((), ·)) := by
  obtain ⟨_ | ⟨top, below⟩⟩ := abyss
  · rfl
  · have taken : (submerge depth).run ⟨top :: below⟩ =
        .ok () ((Abyss.mk below).insertAt
          (if depth = 0 then 0 else (Abyss.mk below).size - depth) top) := rfl
    rw [taken, Abyss.submerge_cons]
    by_cases bottom : depth = 0
    · rw [if_pos bottom, if_pos bottom, Abyss.insertAt_zero]
      rfl
    · rw [if_neg bottom, if_neg bottom, Abyss.insertAt_size_sub]
      rfl

theorem run_forM_push (bs : List Bubble) (abyss : Abyss) :
    (bs.forM push).run abyss = .ok () ⟨bs.reverse ++ abyss.topFirst⟩ := by
  induction bs generalizing abyss with
  | nil => rfl
  | cons b bs ih =>
    have first : ((b :: bs).forM push).run abyss = (bs.forM push).run (abyss.push b) := rfl
    rw [first, ih, List.reverse_cons, List.append_assoc]
    rfl

theorem run_split (abyss : Abyss) :
    split.run abyss = abyss.settle (abyss.split.map ((), ·)) := by
  obtain ⟨_ | ⟨top, below⟩⟩ := abyss
  · rfl
  · exact run_forM_push top.released ⟨below⟩

theorem run_gather (done : abyss.gather count top = .ok (gathered, left)) :
    (gather count top).run abyss = .ok gathered left := by
  induction count generalizing abyss top with
  | zero =>
    obtain ⟨rfl, rfl⟩ := Prod.mk.inj (Except.ok.inj done)
    rfl
  | succ count ih =>
    obtain ⟨_ | ⟨b, below⟩⟩ := abyss
    · contradiction
    · have first : (gather (count + 1) top).run ⟨b :: below⟩ =
          (gather count (top.merge b)).run ⟨below⟩ := rfl
      rw [first]
      exact ih done

theorem run_require (needed : Nat) (abyss : Abyss) :
    (require needed).run abyss = abyss.settle ((abyss.require needed).map (·, abyss)) := by
  have tested : (require needed).run abyss =
      (if abyss.size < needed then throw ⟨needed, abyss.size⟩ else pure () : InPlace Unit).run
        abyss := rfl
  rw [tested]
  split
  · rename_i short
    rw [Abyss.require_of_lt short]
    rfl
  · rename_i enough
    rw [Abyss.require_of_le (Nat.le_of_not_lt enough)]
    rfl

theorem run_surround (count : Nat) (abyss : Abyss) :
    (surround count).run abyss = abyss.settle ((abyss.surround count).map ((), ·)) := by
  rw [surround, EStateM.run_bind, run_require]
  rcases Nat.lt_or_ge abyss.size count with short | enough
  · rw [Abyss.surround_of_lt short, Abyss.require_of_lt short]
    rfl
  · have gathers := run_gather (@Abyss.gather_double _ _ [] enough)
    rw [Abyss.surround_of_le enough, Abyss.require_of_le enough]
    change (gather count (.double []) >>= fun gathered => push (.ofList gathered.released)).run
      abyss = _
    rw [EStateM.run_bind, gathers, List.append_nil]
    rfl

end InPlace

namespace Abyss

inductive Operation
  | require (needed : Nat)
  | push (b : Bubble)
  | pop
  | peek
  | peekTwo
  | popTwo
  | submerge (depth : Nat)
  | split
  | duplicate
  | surround (number : Nat)
  | merge
  | count
  deriving DecidableEq, Repr

namespace Operation

def needed : Operation → Nat
  | require needed => needed
  | push _ => 0
  | pop | peek | submerge _ | split | duplicate | count => 1
  | peekTwo | popTwo | merge => 2
  | surround number => number

def apply (abyss : Abyss) : Operation → Except Underflow (List Bubble × Abyss)
  | require needed => (abyss.require needed).map fun _ => ([], abyss)
  | push b => .ok ([], abyss.push b)
  | pop => abyss.pop.map fun (a, rest) => ([a], rest)
  | peek => abyss.peek.map fun a => ([a], abyss)
  | peekTwo => abyss.peekTwo.map fun (a, b) => ([a, b], abyss)
  | popTwo => abyss.popTwo.map fun (a, b, rest) => ([a, b], rest)
  | submerge depth => (abyss.submerge depth).map ([], ·)
  | split => abyss.split.map ([], ·)
  | duplicate => abyss.duplicate.map ([], ·)
  | surround number => (abyss.surround number).map ([], ·)
  | merge => abyss.merge.map ([], ·)
  | count => abyss.count.map ([], ·)

def steps : Operation → InPlace (List Bubble)
  | require needed => do
    InPlace.require needed
    return []
  | push b => do
    InPlace.push b
    return []
  | pop => do
    let a ← InPlace.pop
    return [a]
  | peek => do
    let a ← InPlace.peek
    return [a]
  | peekTwo => do
    let (a, b) ← InPlace.peekTwo
    return [a, b]
  | popTwo => do
    let (a, b) ← InPlace.popTwo
    return [a, b]
  | submerge depth => do
    InPlace.submerge depth
    return []
  | split => do
    InPlace.split
    return []
  | duplicate => do
    InPlace.duplicate
    return []
  | surround number => do
    InPlace.surround number
    return []
  | merge => do
    InPlace.merge
    return []
  | count => do
    InPlace.count
    return []

variable {abyss : Abyss} {operation : Operation}

theorem run_of_settle {command : InPlace Unit} {result : Except Underflow Abyss}
    (settles : command.run abyss = abyss.settle (result.map ((), ·))) :
    (do command; return [] : InPlace (List Bubble)).run abyss =
      abyss.settle (result.map ([], ·)) := by
  rw [EStateM.run_bind, settles]
  cases result <;> rfl

/-- Step by step an operation comes to all that it is, or to a failure and no change. -/
theorem run_steps (operation : Operation) (abyss : Abyss) :
    operation.steps.run abyss = abyss.settle (operation.apply abyss) := by
  cases operation with
  | push b => rfl
  | pop | peek | duplicate | count => obtain ⟨_ | ⟨top, below⟩⟩ := abyss <;> rfl
  | peekTwo | popTwo | merge => obtain ⟨_ | ⟨top, _ | ⟨second, below⟩⟩⟩ := abyss <;> rfl
  | require needed =>
    rw [steps, EStateM.run_bind, InPlace.run_require, apply]
    cases abyss.require needed <;> rfl
  | submerge depth => exact run_of_settle (InPlace.run_submerge depth abyss)
  | split => exact run_of_settle (InPlace.run_split abyss)
  | surround number => exact run_of_settle (InPlace.run_surround number abyss)

theorem apply_of_short (short : abyss.size < operation.needed) :
    operation.apply abyss = .error ⟨operation.needed, abyss.size⟩ := by
  cases operation with
  | push b => contradiction
  | pop | peek | submerge | split | duplicate | count =>
    obtain ⟨_ | ⟨top, below⟩⟩ := abyss
    · rfl
    · exact absurd short (Nat.not_lt.2 (Nat.le_add_left _ _))
  | peekTwo | popTwo | merge =>
    obtain ⟨_ | ⟨top, _ | ⟨second, below⟩⟩⟩ := abyss
    · rfl
    · rfl
    · exact absurd short (Nat.not_lt.2 (Nat.le_add_left _ _))
  | require number =>
    have short : abyss.size < number := short
    rw [apply, require_of_lt short]
    rfl
  | surround number =>
    have short : abyss.size < number := short
    rw [apply, surround_of_lt short]
    rfl

theorem exists_apply_of_enough (enough : operation.needed ≤ abyss.size) :
    ∃ handed after, operation.apply abyss = .ok (handed, after) := by
  cases operation with
  | push b => exact ⟨_, _, rfl⟩
  | pop | peek | split | duplicate | count =>
    obtain ⟨_ | ⟨top, below⟩⟩ := abyss
    · contradiction
    · exact ⟨_, _, rfl⟩
  | peekTwo | popTwo | merge =>
    obtain ⟨_ | ⟨top, _ | ⟨second, below⟩⟩⟩ := abyss
    · contradiction
    · simp [needed, size] at enough
    · exact ⟨_, _, rfl⟩
  | submerge depth =>
    obtain ⟨_ | ⟨top, below⟩⟩ := abyss
    · contradiction
    · rw [apply, submerge_cons]
      exact ⟨_, _, rfl⟩
  | require number =>
    have enough : number ≤ abyss.size := enough
    rw [apply, require_of_le enough]
    exact ⟨_, _, rfl⟩
  | surround number =>
    have enough : number ≤ abyss.size := enough
    rw [apply, surround_of_le enough]
    exact ⟨_, _, rfl⟩

theorem apply_eq_error_iff {underflow : Underflow} :
    operation.apply abyss = .error underflow ↔
      abyss.size < operation.needed ∧ underflow = ⟨operation.needed, abyss.size⟩ := by
  rcases Nat.lt_or_ge abyss.size operation.needed with short | enough
  · rw [apply_of_short short, Except.error.injEq, eq_comm]
    exact (and_iff_right short).symm
  · obtain ⟨handed, after, done⟩ := exists_apply_of_enough enough
    rw [done]
    constructor
    · intro failed
      contradiction
    · intro failed
      exact absurd failed.1 (Nat.not_lt.2 enough)

/-- One operation after another, whether or not the one before it failed: what each comes to, and
the abyss at the end. -/
def replay (abyss : Abyss) : List Operation → List (Except Underflow (List Bubble)) × Abyss
  | [] => ([], abyss)
  | operation :: operations =>
    match operation.steps.run abyss with
    | .ok handed after =>
      let (results, last) := replay after operations
      (.ok handed :: results, last)
    | .error underflow after =>
      let (results, last) := replay after operations
      (.error underflow :: results, last)

def succeeding (abyss : Abyss) : List Operation → List Operation
  | [] => []
  | operation :: operations =>
    match operation.steps.run abyss with
    | .ok _ after => operation :: succeeding after operations
    | .error _ after => succeeding after operations

theorem replay_succeeding (abyss : Abyss) (operations : List Operation) :
    replay abyss (succeeding abyss operations) =
      ((replay abyss operations).1.filter Except.isOk, (replay abyss operations).2) := by
  induction operations generalizing abyss with
  | nil => rfl
  | cons operation operations ih =>
    have taken := operation.run_steps abyss
    cases applied : operation.apply abyss with
    | ok result =>
      obtain ⟨handed, after⟩ := result
      rw [applied, settle] at taken
      simp only [succeeding, replay, taken, ih after]
      rfl
    | error underflow =>
      -- The operation is left out, and those after it find the abyss that it found.
      rw [applied, settle] at taken
      simp only [succeeding, replay, taken, ih abyss]
      rfl

theorem succeeding_sublist (abyss : Abyss) (operations : List Operation) :
    (succeeding abyss operations).Sublist operations := by
  induction operations generalizing abyss with
  | nil => exact .slnil
  | cons operation operations ih =>
    rw [succeeding]
    split
    · rename_i after _
      exact (ih after).cons_cons operation
    · rename_i after _
      exact (ih after).cons operation

end Operation

/-- An operation fails exactly if there are fewer bubbles than it needs; it tells how many it needs
and how many there are, and step by step it has left the abyss as it was. So of a sequence of
operations those that fail can be left out: the others come to the same, and so does the abyss. -/
theorem operations_all_or_nothing (abyss : Abyss) :
    (∀ operation : Operation,
      (∀ underflow after, operation.steps.run abyss = .error underflow after ↔
        abyss.size < operation.needed ∧ underflow = ⟨operation.needed, abyss.size⟩ ∧
          after = abyss) ∧
      (∀ handed after, operation.steps.run abyss = .ok handed after ↔
        operation.apply abyss = .ok (handed, after)) ∧
      ∀ underflow, operation.apply abyss = .error underflow ↔
        abyss.size < operation.needed ∧ underflow = ⟨operation.needed, abyss.size⟩) ∧
    ∀ operations : List Operation,
      (Operation.succeeding abyss operations).Sublist operations ∧
      Operation.replay abyss (Operation.succeeding abyss operations) =
        ((Operation.replay abyss operations).1.filter Except.isOk,
          (Operation.replay abyss operations).2) := by
  constructor
  · intro operation
    refine ⟨?_, ?_, fun underflow => Operation.apply_eq_error_iff⟩
    · intro underflow after
      rw [operation.run_steps, settle_eq_error_iff, Operation.apply_eq_error_iff, and_assoc]
    · intro handed after
      rw [operation.run_steps, settle_eq_ok_iff]
  · intro operations
    exact ⟨Operation.succeeding_sublist abyss operations,
      Operation.replay_succeeding abyss operations⟩

end Abyss

end AwaLang
