import Mathlib.Data.List.Basic

/-!
# Numbers in texts

A number is written with decimal digits only. So whatever stands before it ends at the last
character that is no digit, and a text that consists of a front, such a character and a number has
one front and one number (`append_cons_toString_inj`), whatever the front holds.
-/

namespace ProviderDiscovery.Text

/-- A character that is no digit occurs in no number. -/
theorem notMem_toString {c : Char} (hc : c.isDigit = false) (n : Nat) :
    c ∉ (toString n).toList := by
  rw [Nat.toString_eq_ofList_toDigits, String.toList_ofList]
  intro hmem
  have hdigit := Nat.isDigit_of_mem_toDigits (by decide) (by decide) hmem
  rw [hc] at hdigit
  cases hdigit

/-- A separator that does not occur behind itself has one place. -/
theorem append_cons_inj_of_notMem_back {α : Type} {a : α} {front front' back back' : List α}
    (hback : a ∉ back) (hback' : a ∉ back') (h : front ++ a :: back = front' ++ a :: back') :
    front = front' ∧ back = back' := by
  rcases List.append_eq_append_iff.mp h with ⟨between, hfront, hrest⟩ | ⟨between, hfront, hrest⟩
  · cases between with
    | nil =>
      rw [List.append_nil] at hfront
      exact ⟨hfront.symm, (List.cons.inj hrest).2⟩
    | cons b between =>
      rw [(List.cons.inj hrest).2] at hback
      exact absurd (List.mem_append_right _ List.mem_cons_self) hback
  · cases between with
    | nil =>
      rw [List.append_nil] at hfront
      exact ⟨hfront, (List.cons.inj hrest).2.symm⟩
    | cons b between =>
      rw [(List.cons.inj hrest).2] at hback'
      exact absurd (List.mem_append_right _ List.mem_cons_self) hback'

/-- The number behind the last separator can be read off, and so can what stands before it. -/
theorem append_cons_toString_inj {c : Char} (hc : c.isDigit = false) {front front' : List Char}
    {m n : Nat} (h : front ++ c :: (toString m).toList = front' ++ c :: (toString n).toList) :
    front = front' ∧ m = n := by
  obtain ⟨hfront, hnumber⟩ :=
    append_cons_inj_of_notMem_back (notMem_toString hc m) (notMem_toString hc n) h
  refine ⟨hfront, ?_⟩
  rw [Nat.toString_eq_ofList_toDigits, Nat.toString_eq_ofList_toDigits, String.toList_ofList,
    String.toList_ofList] at hnumber
  have hread := congrArg (fun digits => Nat.ofDigitChars 10 digits 0) hnumber
  simpa using hread

/-- A number can be read off its digits. -/
theorem toString_inj {m n : Nat} (h : toString m = toString n) : m = n := by
  have hsame : [] ++ ' ' :: (toString m).toList = [] ++ ' ' :: (toString n).toList := by rw [h]
  exact (append_cons_toString_inj rfl hsame).2

end ProviderDiscovery.Text
