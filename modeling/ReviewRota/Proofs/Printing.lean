import ReviewRota.Json.Printer
import ReviewRota.Proofs.Parsing

/-!
# ReviewRota.Proofs.Printing

What is written follows the grammar, and so it is read back.

A value is read back as it was written, with one exception.  A decimal keeps of its
significand the leading digits that fit 64 bits, and counts the others in its
exponent; `Json.kept` is the value after that.  Where there are no decimals nothing
changes.

* `Json.text_print` — a written value is a text of what is kept of it;
* `Json.parse?_print` — and that is what it is read as.
-/

namespace ReviewRota
namespace Json

/-! ## What is kept of a value -/

mutual

/-- The value after it was written and read back. -/
def kept : Json → Json
  | .decimal m e => ofParts (m < 0) (Nat.toDigits 10 m.natAbs) none (some e)
  | .array items => .array (keptItems items)
  | .object members => .object (keptMembers members)
  | j => j

def keptItems : List Json → List Json
  | [] => []
  | j :: rest => j.kept :: keptItems rest

def keptMembers : List (Option String × Json) → List (Option String × Json)
  | [] => []
  | (name, j) :: rest => (name, j.kept) :: keptMembers rest

end

theorem keptItems_eq_map (items : List Json) : keptItems items = items.map kept := by
  induction items with
  | nil => rfl
  | cons j rest ih => rw [keptItems, List.map_cons, ih]

theorem keptMembers_eq_map (members : List (Option String × Json)) :
    keptMembers members = members.map fun m => (m.1, m.2.kept) := by
  induction members with
  | nil => rfl
  | cons m rest ih => rw [keptMembers, List.map_cons, ih]

/-! ## Numbers -/

theorem head?_toDigits_ne_zero {n : Nat} (h : 0 < n) : (Nat.toDigits 10 n).head? ≠ some '0' := by
  induction n using Nat.strongRecOn with
  | ind n ih =>
      by_cases hone : n < 10
      · have hall : ∀ d : Fin 10, 0 < d.val → some (Nat.digitChar d) ≠ some '0' := by decide
        rw [Nat.toDigits_of_lt_base hone]
        exact hall ⟨n, hone⟩ h
      · have hfront := ih (n / 10) (by omega) (by omega)
        rw [Nat.toDigits_of_base_le (by decide) (by omega), List.head?_append,
          Option.or_of_isSome (by simp [Nat.toDigits_ne_nil])]
        exact hfront

/-- Written digits do not start with a zero that could be left out. -/
theorem whole_toDigits (n : Nat) : Whole (Nat.toDigits 10 n) where
  ne_nil := Nat.toDigits_ne_nil
  all _ := Nat.isDigit_of_mem_toDigits (by decide) (by decide)
  alone h := by
    cases n with
    | zero => rfl
    | succ n => exact absurd h (head?_toDigits_ne_zero n.succ_pos)

theorem signed_writeInt (n : Int) : Signed (writeInt n) n := by
  have hdigits := (whole_toDigits n.natAbs).toDigits
  unfold writeInt
  split
  · have hminus := Signed.minus hdigits
    rw [Nat.ofDigitChars_ten_toDigits] at hminus
    rwa [show -(n.natAbs : Int) = n by omega] at hminus
  · have hbare := Signed.bare hdigits
    rw [Nat.ofDigitChars_ten_toDigits] at hbare
    rwa [show (n.natAbs : Int) = n by omega] at hbare

/-- A number whose digits before the point are those of `n`. -/
theorem number_writeInt_append (n : Int) {f e : List Char} {fraction : Option (List Char)}
    {exponent : Option Int} (hf : Fraction f fraction) (he : Exponent e exponent) :
    Number (writeInt n ++ (f ++ e))
      (ofParts (n < 0) (Nat.toDigits 10 n.natAbs) fraction exponent) := by
  unfold writeInt
  split
  · rename_i hneg
    rw [decide_eq_true hneg]
    exact .minus (.mk (whole_toDigits _) hf he)
  · rename_i hpos
    rw [decide_eq_false hpos]
    exact .bare (.mk (whole_toDigits _) hf he)

theorem ofParts_toDigits (n : Int) :
    ofParts (n < 0) (Nat.toDigits 10 n.natAbs) none none = .integer n := by
  simp only [ofParts, Nat.ofDigitChars_ten_toDigits]
  by_cases hneg : n < 0
  · have hn : n.natAbs ≠ 0 := by omega
    simp only [hneg, hn, decide_true, decide_false, Bool.and_false, Bool.false_eq_true, if_false,
      if_true]
    congr 1
    omega
  · simp only [hneg, decide_false, Bool.false_and, Bool.false_eq_true, if_false]
    congr 1
    omega

theorem number_writeInt (n : Int) : Number (writeInt n) (.integer n) := by
  have hnumber := number_writeInt_append n .absent .absent
  rwa [List.append_nil, List.append_nil, ofParts_toDigits] at hnumber

/-! ## Literals -/

theorem literal_writeText (s : String) : Literal (writeText s) (some s) := by
  obtain ⟨t, ht, hwritten⟩ := scan_sound (scan_flatMap_escape s.toList [])
  obtain rfl := List.append_cancel_right hwritten
  have hpaired := join_eq_some_iff.mp (join_map_char s.toList)
  simpa [writeText] using Literal.text ht hpaired

theorem literal_writeLiteral (s : Option String) : Literal (writeLiteral s) s := by
  cases s with
  | some s => exact literal_writeText s
  | none =>
      have hscan : scan "\\ud800\"".toList = some ([.half 0xd800], []) := by decide
      obtain ⟨t, ht, hwritten⟩ := scan_sound hscan
      have hinside : t = "\\ud800".toList := List.append_cancel_right hwritten.symm
      subst hinside
      exact .unpaired ht fun cs => nofun

/-! ## Values -/

mutual

theorem value_write (j : Json) : Value j.write j.kept := by
  cases j with
  | null => exact .null
  | bool b =>
      cases b with
      | true => exact .yes
      | false => exact .no
  | integer n => exact .number (number_writeInt n)
  | decimal m e =>
      exact .number (number_writeInt_append m .absent (.lower (signed_writeInt e)))
  | text s => exact .text (literal_writeLiteral s)
  | array items =>
      cases items with
      | nil => exact .emptyArray gap_nil
      | cons j rest =>
          obtain ⟨t, ht, hwritten⟩ := items_write j rest
          rw [write, hwritten]
          exact .array ht
  | object members =>
      cases members with
      | nil => exact .emptyObject gap_nil
      | cons m rest =>
          obtain ⟨name, j⟩ := m
          obtain ⟨t, ht, hwritten⟩ := members_write name j rest
          rw [write, hwritten]
          exact .object ht
termination_by sizeOf j

theorem items_write (j : Json) (rest : List Json) :
    ∃ t, Items t (keptItems (j :: rest)) ∧ j.write ++ writeItems rest = t ++ [']'] := by
  cases rest with
  | nil => exact ⟨_, .one gap_nil (value_write j) gap_nil, by simp [writeItems]⟩
  | cons next rest =>
      obtain ⟨t, ht, hwritten⟩ := items_write next rest
      exact ⟨_, .more gap_nil (value_write j) gap_nil ht, by simp [writeItems, hwritten]⟩
termination_by sizeOf j + sizeOf rest + 1

theorem members_write (name : Option String) (j : Json) (rest : List (Option String × Json)) :
    ∃ t, Members t (keptMembers ((name, j) :: rest)) ∧
      writeLiteral name ++ ':' :: (j.write ++ writeMembers rest) = t ++ ['\x7d'] := by
  have hmember : Member (writeLiteral name ++ ':' :: j.write) (name, j.kept) := by
    simpa using Member.mk gap_nil (literal_writeLiteral name) gap_nil gap_nil (value_write j)
      gap_nil
  cases rest with
  | nil => exact ⟨_, .one hmember, by simp [writeMembers]⟩
  | cons next rest =>
      obtain ⟨nextName, next⟩ := next
      obtain ⟨t, ht, hwritten⟩ := members_write nextName next rest
      exact ⟨_, .more hmember ht, by simp [writeMembers, hwritten]⟩
termination_by sizeOf j + sizeOf rest + 1

end

/-- What is written is a text of what is kept. -/
theorem text_print (j : Json) : Text j.print j.kept :=
  ⟨[], j.write, [], gap_nil, value_write j, gap_nil, by simp [print]⟩

theorem parse?_print (j : Json) : parse? j.print = some j.kept :=
  parse?_eq_some_iff.mpr j.text_print

end Json
end ReviewRota
