import AwaLang.Machine.Step

namespace AwaLang

def Effect.Yields : Effect → State → Prop
  | proceed next, state => state = next
  | write _ next, state => state = next
  | read resume, state => ∃ line, resume line = .ok state
  | fail _ _, _ => False

def Effect.Raises : Effect → Cause → Prop
  | fail cause _, raised => raised = cause
  | read resume, raised => ∃ line, resume line = .error raised
  | proceed _, _ => False
  | write _ _, _ => False

/-- The causes that an operation can fail with; one that names an operation names this one. -/
def Cause.Arises (op : Opcode) : Cause → Prop
  | stackUnderflow named _ | divisionByZero named | overflow named => named = op
  | alphabet _ | notNumeric _ => True
  | malformedSource _ | missingParameter _ | invalidOpcode _ | limitExceeded _ | io _ => False

theorem Cause.arises_ofArithmetic (op : Opcode) (fault : ArithmeticFault) :
    (Cause.ofArithmetic op fault).Arises op := by
  cases fault <;> rfl

namespace Effect

variable {op : Opcode} {next : Nat} {abyss : Abyss} {state : State} {cause : Cause}

theorem yields_input {bubbleIn : Option String → Except Cause Bubble}
    (yields : (input next abyss bubbleIn).Yields state) :
    ∃ line b, bubbleIn line = .ok b ∧ state = ⟨next, abyss.push b⟩ := by
  obtain ⟨line, resumed⟩ := yields
  cases made : bubbleIn line with
  | error cause => simp [made, Except.map] at resumed
  | ok b =>
    simp only [made, Except.map, Except.ok.injEq] at resumed
    exact ⟨line, b, made, resumed.symm⟩

theorem yields_print {textOf : Bubble → Except Cause String}
    (yields : (print op next abyss textOf).Yields state) :
    ∃ b rest, abyss.pop = .ok (b, rest) ∧ state = ⟨next, rest⟩ := by
  unfold print at yields
  split at yields
  · contradiction
  · rename_i b rest popped
    split at yields
    · exact ⟨b, rest, popped, yields⟩
    · contradiction

theorem yields_rearrange {result : Except Underflow Abyss}
    (yields : (rearrange op next abyss result).Yields state) :
    ∃ after, result = .ok after ∧ state = ⟨next, after⟩ := by
  unfold rearrange at yields
  split at yields
  · exact ⟨_, rfl, yields⟩
  · contradiction

theorem yields_calculate (yields : (calculate op next abyss).Yields state) :
    ∃ a b rest arithmetic result, abyss.popTwo = .ok (a, b, rest) ∧
      op.arithmetic? = some arithmetic ∧ a.combine arithmetic b = .ok result ∧
      state = ⟨next, rest.push result⟩ := by
  unfold calculate at yields
  split at yields
  · contradiction
  · rename_i a b rest popped
    split at yields
    · contradiction
    · rename_i arithmetic does
      split at yields
      · rename_i result combined
        exact ⟨a, b, rest, arithmetic, result, popped, does, combined, yields⟩
      · contradiction

theorem yields_branch {labels : Labels} {label : Token}
    (yields : (branch labels op label next abyss).Yields state) :
    ∃ taken, op.jumps abyss = .ok taken ∧
      state = ⟨if taken then labels.goto label next else next, abyss⟩ := by
  unfold branch at yields
  split at yields
  · rename_i taken jumps
    exact ⟨taken, jumps, yields⟩
  · contradiction

theorem raises_input {bubbleIn : Option String → Except Cause Bubble}
    (raises : (input next abyss bubbleIn).Raises cause) : ∃ line, bubbleIn line = .error cause := by
  obtain ⟨line, refused⟩ := raises
  cases made : bubbleIn line with
  | error own =>
    simp only [made, Except.map, Except.error.injEq] at refused
    exact ⟨line, refused ▸ made⟩
  | ok b => simp [made, Except.map] at refused

theorem arises_lettersIn {line : Option String} (refused : lettersIn line = .error cause) :
    cause.Arises op := by
  unfold lettersIn at refused
  split at refused
  · contradiction
  · rw [Except.error.injEq] at refused
    exact refused ▸ trivial

theorem arises_numeralIn {line : Option String} (refused : numeralIn line = .error cause) :
    cause.Arises op := by
  unfold numeralIn at refused
  split at refused
  · contradiction
  · split at refused
    · contradiction
    · rw [Except.error.injEq] at refused
      exact refused ▸ trivial

theorem arises_lettersOf {b : Bubble} (refused : lettersOf b = .error cause) : cause.Arises op := by
  unfold lettersOf at refused
  split at refused
  · contradiction
  · rw [Except.error.injEq] at refused
    exact refused ▸ trivial

theorem arises_print {textOf : Bubble → Except Cause String}
    (refuses : ∀ {b cause}, textOf b = .error cause → cause.Arises op)
    (raises : (print op next abyss textOf).Raises cause) : cause.Arises op := by
  unfold print at raises
  split at raises
  · exact raises ▸ rfl
  · split at raises
    · contradiction
    · rename_i own refused
      exact raises ▸ refuses refused

theorem arises_rearrange {result : Except Underflow Abyss}
    (raises : (rearrange op next abyss result).Raises cause) : cause.Arises op := by
  unfold rearrange at raises
  split at raises
  · contradiction
  · exact raises ▸ rfl

/-- The operation is found again in its arithmetic, and a refusal names it. -/
theorem arises_calculate {arithmetic : ArithmeticOp} (does : op.arithmetic? = some arithmetic)
    (raises : (calculate op next abyss).Raises cause) : cause.Arises op := by
  have named : arithmetic.opcode = op := Opcode.arithmetic?_eq_some_iff.1 does
  unfold calculate at raises
  split at raises
  · exact raises ▸ rfl
  · rw [does] at raises
    split at raises
    · contradiction
    · rename_i own same
      rw [Option.some.injEq] at same
      subst same
      split at raises
      · contradiction
      · rw [named] at raises
        exact raises ▸ Cause.arises_ofArithmetic op _

theorem arises_branch {labels : Labels} {label : Token}
    (raises : (branch labels op label next abyss).Raises cause) : cause.Arises op := by
  unfold branch at raises
  split at raises
  · contradiction
  · exact raises ▸ rfl

end Effect

theorem Program.arises_perform {program : Program} {op : Opcode} {parameter : Token} {next : Nat}
    {abyss : Abyss} {cause : Cause}
    (raises : (program.perform op parameter next abyss).Raises cause) : cause.Arises op := by
  cases op with
  | nop | lbl | blo | trm => contradiction
  | prn => exact Effect.arises_print Effect.arises_lettersOf raises
  | pr1 =>
    have refuses {b : Bubble} {cause : Cause} (refused : .ok b.text = Except.error cause) :
        cause.Arises .pr1 := nomatch refused
    rw [perform] at raises
    exact Effect.arises_print refuses raises
  | red =>
    obtain ⟨line, refused⟩ := Effect.raises_input raises
    exact Effect.arises_lettersIn refused
  | r3d =>
    obtain ⟨line, refused⟩ := Effect.raises_input raises
    exact Effect.arises_numeralIn refused
  | sbm | pop | dpl | srn | mrg | cnt => exact Effect.arises_rearrange raises
  | add | sub | mul | div => exact Effect.arises_calculate rfl raises
  | jmp | eql | lss | gr8 | eqz => exact Effect.arises_branch raises

end AwaLang
