import AwaLang.Proofs.Host.Channel

namespace AwaLang.Channel

/-- Answers that take lines off the front of a queue. If the end of the input is among them, no line
is left and none comes after it. -/
def HandsOver (queue : List String) (answers : List Reading) (left : List String) : Prop :=
  ∃ taken count, answers = taken.map .line ++ List.replicate count .endOfInput ∧
    queue = taken ++ left ∧ (count ≠ 0 → left = [])

variable {queue middle left removed : List String} {answers others : List Reading}

namespace HandsOver

theorem refl (queue : List String) : HandsOver queue [] queue :=
  ⟨[], 0, rfl, rfl, fun some => absurd rfl some⟩

theorem trans (first : HandsOver queue answers middle) (second : HandsOver middle others left) :
    HandsOver queue (answers ++ others) left := by
  obtain ⟨taken, count, rfl, rfl, ended⟩ := first
  obtain ⟨more, extra, rfl, rfl, finished⟩ := second
  rcases Nat.eq_zero_or_pos count with none | some
  · subst none
    exact ⟨taken ++ more, extra, by simp, by simp, finished⟩
  · have empty := ended (by omega)
    rw [List.append_eq_nil_iff] at empty
    obtain ⟨rfl, rfl⟩ := empty
    exact ⟨taken, count + extra, by simp [← List.replicate_append_replicate], by simp, fun _ => rfl⟩

end HandsOver

variable {channel after : Channel} {waits : Bool}

end AwaLang.Channel
