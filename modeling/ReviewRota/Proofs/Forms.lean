import ReviewRota.Exchange
import ReviewRota.Proofs.Printing
import Mathlib.Algebra.Group.Nat.Defs
import Mathlib.Data.List.Forall2
import Mathlib.Data.List.Nodup
import Mathlib.Data.Option.Basic

/-!
# ReviewRota.Proofs.Forms

The JSON values that stand for a value.

Each value is written as one of them, but others say the same: in a record the fields
may come in any order, among members of other names, or as an array without their
names; and so may the fields of the records inside it.

* `Formed` — the types whose values are told by their forms, and are read from each;
* `RecordForm` — the forms of a record, given those of its fields;
* `RecordForm.exists_fields` — every form of a record holds a form of each field.
-/

namespace ReviewRota

/-- Types whose values are told by the JSON values that stand for them. -/
class Formed (α : Type) [Exchanged α] where
  /-- The values that can be exchanged, since a number has a size. -/
  InRange : α → Prop
  /-- The JSON values that stand for a value. -/
  Form : α → Json → Prop
  form_toJson (a : α) : Form a (toJson a)
  form_kept {a : α} {j : Json} : Form a j → Form a j.kept
  ofJson?_eq {a : α} {j : Json} : InRange a → Form a j → ofJson? j = some a

export Formed (InRange Form form_toJson form_kept ofJson?_eq)

/-! ## Plain values -/

instance : Formed String where
  InRange _ := True
  Form s j := j = .ofText s
  form_toJson _ := rfl
  form_kept := by rintro s _ rfl; rfl
  ofJson?_eq := by rintro s _ - rfl; rfl

instance : Formed Bool where
  InRange _ := True
  Form b j := j = .bool b
  form_toJson _ := rfl
  form_kept := by rintro b _ rfl; rfl
  ofJson?_eq := by rintro b _ - rfl; rfl

instance : Formed (Option String) where
  InRange _ := True
  Form o j := j = toJson o
  form_toJson _ := rfl
  form_kept := by rintro (_ | s) _ rfl <;> rfl
  ofJson?_eq := by rintro (_ | s) _ - rfl <;> rfl

section List

variable {α : Type} [Exchanged α] [Formed α]

theorem readAll_eq {as : List α} {items : List Json} (hrange : ∀ a ∈ as, InRange a)
    (h : List.Forall₂ Form as items) : readAll items = some as := by
  induction h with
  | nil => rfl
  | cons ha _ ih =>
      obtain ⟨hfirst, hrest⟩ := List.forall_mem_cons.mp hrange
      rw [readAll, ofJson?_eq hfirst ha, ih hrest]

/-- A list stands as an array of any forms of its items. -/
instance : Formed (List α) where
  InRange as := ∀ a ∈ as, InRange a
  Form as j := ∃ items, j = .array items ∧ List.Forall₂ Form as items
  form_toJson as := by
    refine ⟨as.map toJson, rfl, List.forall₂_map_right_iff.mpr ?_⟩
    exact List.forall₂_same.mpr fun a _ => form_toJson a
  form_kept := by
    rintro as _ ⟨items, rfl, hitems⟩
    refine ⟨items.map Json.kept, congrArg Json.array (Json.keptItems_eq_map items), ?_⟩
    exact List.forall₂_map_right_iff.mpr (hitems.imp fun _ _ => form_kept)
  ofJson?_eq := by
    rintro as _ hrange ⟨items, rfl, hitems⟩
    exact readAll_eq hrange hitems

end List

/-! ## Numbers -/

/-- The numbers of 64 bits with a sign. -/
def FitsInt64 (n : Int) : Prop := -9223372036854775808 ≤ n ∧ n ≤ 9223372036854775807

theorem readInt64?_integer {n : Int} (h : FitsInt64 n) : readInt64? (.integer n) = some n :=
  if_pos h

theorem readUnsigned?_integer {bits n : Nat} (h : n < 2 ^ bits) :
    readUnsigned? bits (.integer n) = some n := by
  have hfits : (0 : Int) ≤ n ∧ (n : Int) ≤ (Nat.pow 2 bits - 1 : Nat) := by
    have hpow : Nat.pow 2 bits = 2 ^ bits := rfl
    omega
  rw [readUnsigned?, readInt?, if_pos hfits]
  rfl

theorem kept_optionalJson (o : Option Int) : (optionalJson o).kept = optionalJson o := by
  cases o <;> rfl

theorem readOptionalInt64?_optionalJson {o : Option Int} (h : ∀ n ∈ o, FitsInt64 n) :
    readOptionalInt64? (optionalJson o) = some o := by
  cases o with
  | none => rfl
  | some n =>
      rw [optionalJson, readOptionalInt64?, readInt64?_integer (h n rfl)]
      · rfl
      · nofun

/-! ## Fields -/

/-- A declared field, with the JSON values that stand for its value. -/
structure FieldForm where
  name : String
  Holds : Json → Prop
  holds_kept {j : Json} : Holds j → Holds j.kept

namespace FieldForm

/-- A field of a type that has forms. -/
def of {α : Type} [Exchanged α] [Formed α] (name : String) (a : α) : FieldForm :=
  ⟨name, Form a, form_kept⟩

/-- A field that is written in one way only. -/
def exact (name : String) (j : Json) (h : j.kept = j) : FieldForm :=
  ⟨name, (· = j), by rintro _ rfl; exact h⟩

/-- A field that holds an integer literal. -/
def integer (name : String) (n : Int) : FieldForm := exact name (.integer n) rfl

/-- Among these fields there is this one, with a value that stands for it. -/
def HeldBy (f : FieldForm) (fields : Fields) : Prop := ∃ j, fields f.name = some j ∧ f.Holds j

variable {fields : Fields} {f : FieldForm} {α : Type}

theorem HeldBy.bind_eq (h : f.HeldBy fields) {read? : Json → Option α} {a : α}
    (hread : ∀ j, f.Holds j → read? j = some a) : (fields f.name).bind read? = some a := by
  obtain ⟨j, hj, hholds⟩ := h
  rw [hj, Option.bind_some, hread j hholds]

theorem HeldBy.orElse?_eq (h : f.HeldBy fields) {read? : Json → Option α} {a : α}
    (hread : ∀ j, f.Holds j → read? j = some a) (default : α) :
    fields.orElse? f.name default read? = some a := by
  obtain ⟨j, hj, hholds⟩ := h
  simp only [Fields.orElse?, hj, hread j hholds]

variable {name : String}

theorem HeldBy.get?_eq [Exchanged α] [Formed α] {a : α} (h : (of name a).HeldBy fields)
    (hrange : InRange a) : fields.get? name = some a :=
  h.bind_eq fun _ => ofJson?_eq hrange

theorem HeldBy.optional?_eq {o : Option String} (h : (of name o).HeldBy fields) :
    fields.optional? name = some o := by
  obtain ⟨j, hj, hholds⟩ := h
  have hj : fields name = some j := hj
  simp only [Fields.optional?, hj]
  exact ofJson?_eq trivial hholds

theorem HeldBy.readInt64?_eq {n : Int} (h : (integer name n).HeldBy fields) (hn : FitsInt64 n) :
    (fields name).bind readInt64? = some n :=
  h.bind_eq <| by rintro _ rfl; exact readInt64?_integer hn

theorem HeldBy.readUnsigned?_eq {bits n : Nat} (h : (integer name n).HeldBy fields)
    (hn : n < 2 ^ bits) : (fields name).bind (readUnsigned? bits) = some n :=
  h.bind_eq <| by rintro _ rfl; exact readUnsigned?_integer hn

theorem HeldBy.orElse?_readUnsigned?_eq {bits n : Nat} (h : (integer name n).HeldBy fields)
    (hn : n < 2 ^ bits) (default : Nat) :
    fields.orElse? name default (readUnsigned? bits) = some n :=
  h.orElse?_eq (by rintro _ rfl; exact readUnsigned?_integer hn) default

end FieldForm

/-! ## Records -/

/-- Members that name these fields one after the other, each with a value that stands for
it. -/
def Listed {κ : Type} (key : String → κ) (forms : List FieldForm) (members : List (κ × Json)) :
    Prop :=
  List.Forall₂ (fun f m => m.1 = key f.name ∧ f.Holds m.2) forms members

/-- Members that have these fields among them, in any order.  The others have other
names. -/
inductive Among (forms : List FieldForm) (members : List (Option String × Json)) : Prop
  | intro {declared others : List (Option String × Json)} (hdeclared : Listed some forms declared)
      (hothers : ∀ m ∈ others, ∃ name, m.1 = some name ∧ name ∉ forms.map FieldForm.name)
      (hmembers : members.Perm (declared ++ others)) : Among forms members

/-- The JSON values that stand for a record with these fields. -/
inductive RecordForm (forms : List FieldForm) : Json → Prop
  | object {members : List (Option String × Json)} (hmembers : Among forms members) :
      RecordForm forms (.object members)
  /-- An array of the fields in declared order. -/
  | array {items : List Json} (hitems : List.Forall₂ FieldForm.Holds forms items) :
      RecordForm forms (.array items)

namespace Listed

variable {κ : Type} {key : String → κ} {forms : List FieldForm} {members : List (κ × Json)}

theorem map_fst (h : Listed key forms members) :
    members.map Prod.fst = forms.map (key ∘ FieldForm.name) := by
  induction h with
  | nil => rfl
  | cons hm _ ih => rw [List.map_cons, List.map_cons, ih, hm.1, Function.comp_apply]

theorem exists_member (h : Listed key forms members) {f : FieldForm} (hf : f ∈ forms) :
    ∃ m ∈ members, m.1 = key f.name := by
  have hkey : key f.name ∈ members.map Prod.fst := by
    rw [h.map_fst]
    exact List.mem_map_of_mem hf
  exact List.mem_map.mp hkey

theorem exists_form (h : Listed key forms members) {m : κ × Json} (hm : m ∈ members) :
    ∃ f ∈ forms, m.1 = key f.name ∧ f.Holds m.2 := by
  induction h with
  | nil => cases hm
  | cons hfirst _ ih =>
      rcases List.mem_cons.mp hm with rfl | hm
      · exact ⟨_, List.mem_cons_self, hfirst⟩
      · obtain ⟨f, hf, hheld⟩ := ih hm
        exact ⟨f, List.mem_cons_of_mem _ hf, hheld⟩

/-- A member holds the field that it names, if no two fields have one name. -/
theorem holds (h : Listed key forms members) (hkey : Function.Injective key)
    (hnames : (forms.map FieldForm.name).Nodup) {m : κ × Json} (hm : m ∈ members) {f : FieldForm}
    (hf : f ∈ forms) (hname : m.1 = key f.name) : f.Holds m.2 := by
  obtain ⟨g, hg, hgname, hgholds⟩ := h.exists_form hm
  have hsame : g.name = f.name := hkey (hgname.symm.trans hname)
  rwa [List.inj_on_of_nodup_map hnames hg hf hsame] at hgholds

theorem kept (h : Listed key forms members) :
    Listed key forms (members.map fun m => (m.1, m.2.kept)) :=
  List.forall₂_map_right_iff.mpr (h.imp fun f _ hm => ⟨hm.1, f.holds_kept hm.2⟩)

/-- The items of an array take the names of the fields in their order. -/
theorem zip {items : List Json} (h : List.Forall₂ FieldForm.Holds forms items) :
    Listed id forms ((forms.map FieldForm.name).zip items) := by
  induction h with
  | nil => exact .nil
  | cons hholds _ ih => exact .cons ⟨rfl, hholds⟩ ih

end Listed

/-- A field is found where it has a member and every member of its name holds it. -/
theorem FieldForm.exists_find? {κ : Type} [BEq κ] [LawfulBEq κ] (key : String → κ)
    {f : FieldForm} {members : List (κ × Json)} (hmember : ∃ m ∈ members, m.1 = key f.name)
    (hholds : ∀ m ∈ members, m.1 = key f.name → f.Holds m.2) :
    ∃ j, (members.find? (·.1 == key f.name)).map (·.2) = some j ∧ f.Holds j := by
  cases hfind : members.find? (·.1 == key f.name) with
  | none =>
      obtain ⟨m, hm, hname⟩ := hmember
      exact absurd (beq_iff_eq.mpr hname) (List.find?_eq_none.mp hfind m hm)
  | some m =>
      have hkey : (m.1 == key f.name) = true :=
        List.find?_some (p := fun m : κ × Json => m.1 == key f.name) hfind
      exact ⟨m.2, rfl, hholds m (List.mem_of_find?_eq_some hfind) (beq_iff_eq.mp hkey)⟩

namespace Among

variable {forms : List FieldForm} {members : List (Option String × Json)}

theorem kept (h : Among forms members) : Among forms (members.map fun m => (m.1, m.2.kept)) := by
  obtain ⟨hdeclared, hothers, hmembers⟩ := h
  have hperm := hmembers.map fun m => (m.1, m.2.kept)
  rw [List.map_append] at hperm
  refine .intro hdeclared.kept ?_ hperm
  exact List.forall_mem_map.mpr hothers

theorem exists_member (h : Among forms members) {f : FieldForm} (hf : f ∈ forms) :
    ∃ m ∈ members, m.1 = some f.name := by
  obtain ⟨hdeclared, -, hmembers⟩ := h
  obtain ⟨m, hm, hname⟩ := hdeclared.exists_member hf
  exact ⟨m, hmembers.mem_iff.mpr (List.mem_append_left _ hm), hname⟩

theorem isSome (h : Among forms members) {m : Option String × Json} (hm : m ∈ members) :
    m.1.isSome := by
  obtain ⟨hdeclared, hothers, hmembers⟩ := h
  rcases List.mem_append.mp (hmembers.mem_iff.mp hm) with hm | hm
  · obtain ⟨f, -, hname, -⟩ := hdeclared.exists_form hm
    exact Option.isSome_of_eq_some hname
  · obtain ⟨name, hname, -⟩ := hothers m hm
    exact Option.isSome_of_eq_some hname

theorem holds (h : Among forms members) (hnames : (forms.map FieldForm.name).Nodup)
    {m : Option String × Json} (hm : m ∈ members) {f : FieldForm} (hf : f ∈ forms)
    (hname : m.1 = some f.name) : f.Holds m.2 := by
  obtain ⟨hdeclared, hothers, hmembers⟩ := h
  rcases List.mem_append.mp (hmembers.mem_iff.mp hm) with hm | hm
  · exact hdeclared.holds (Option.some_injective _) hnames hm hf hname
  · obtain ⟨other, hother, hnot⟩ := hothers m hm
    cases hother.symm.trans hname
    exact absurd (List.mem_map_of_mem hf) hnot

theorem occurrences_le_one (h : Among forms members) (hnames : (forms.map FieldForm.name).Nodup)
    {name : String} (hname : name ∈ forms.map FieldForm.name) : occurrences name members ≤ 1 := by
  obtain @⟨declared, others, hdeclared, hothers, hmembers⟩ := h
  -- once among the declared members, since their names differ, and never among the others
  have hdeclared : declared.countP (·.1 == some name) ≤ 1 := by
    have hkeys : (declared.map Prod.fst).Nodup := by
      rw [hdeclared.map_fst, ← List.map_map]
      exact hnames.map (Option.some_injective _)
    have hcount := List.nodup_iff_count_le_one.mp hkeys (some name)
    rwa [List.count, List.countP_map] at hcount
  have hothers : others.countP (·.1 == some name) = 0 := by
    refine List.countP_eq_zero.mpr fun m hm heq => ?_
    obtain ⟨other, hother, hnot⟩ := hothers m hm
    cases hother.symm.trans (beq_iff_eq.mp heq)
    exact hnot hname
  rw [occurrences, hmembers.countP_eq, List.countP_append, hothers]
  exact hdeclared

end Among

namespace RecordForm

variable {forms : List FieldForm}

/-- A record stands as the object that it is written as. -/
theorem ofFields {fields : List (String × Json)} (h : Listed id forms fields) :
    RecordForm forms (.ofFields fields) := by
  have hlisted : Listed some forms (fields.map fun m => (some m.1, m.2)) :=
    List.forall₂_map_right_iff.mpr (h.imp fun _ _ hm => ⟨congrArg some hm.1, hm.2⟩)
  exact .object (.intro hlisted (List.forall_mem_nil _) (.of_eq (List.append_nil _).symm))

theorem kept {j : Json} (h : RecordForm forms j) : RecordForm forms j.kept := by
  cases h with
  | object hmembers =>
      rw [Json.kept, Json.keptMembers_eq_map]
      exact .object hmembers.kept
  | array hitems =>
      rw [Json.kept, Json.keptItems_eq_map]
      exact .array (List.forall₂_map_right_iff.mpr (hitems.imp fun f _ => f.holds_kept))

variable {names : List String} {j : Json}

/-- Every form of a record is read, and all the fields are found. -/
theorem exists_fields (h : RecordForm forms j) (hforms : forms.map FieldForm.name = names)
    (hnames : names.Nodup) {least : Nat} (hleast : least ≤ names.length) :
    ∃ fields, j.fields? names least = some fields ∧ ∀ f ∈ forms, f.HeldBy fields := by
  subst hforms
  cases h with
  | @object members hmembers =>
      have hread : members.all (·.1.isSome) ∧
          (forms.map FieldForm.name).all fun name => occurrences name members ≤ 1 :=
        ⟨List.all_eq_true.mpr fun m hm => hmembers.isSome hm,
          List.all_eq_true.mpr fun name hname =>
            decide_eq_true (hmembers.occurrences_le_one hnames hname)⟩
      exact ⟨_, if_pos hread, fun f hf => FieldForm.exists_find? some (hmembers.exists_member hf)
        fun m hm => hmembers.holds hnames hm hf⟩
  | @array items hitems =>
      have hlisted := Listed.zip hitems
      have hfits : least ≤ items.length ∧ items.length ≤ (forms.map FieldForm.name).length := by
        rw [List.length_map] at hleast ⊢
        have hlength := hitems.length_eq
        omega
      exact ⟨_, if_pos hfits, fun f hf => FieldForm.exists_find? id (hlisted.exists_member hf)
        fun m hm => hlisted.holds Function.injective_id hnames hm hf⟩

/-- A record all of whose fields are counted is read from every form of it. -/
theorem exists_record (h : RecordForm forms j) (hforms : forms.map FieldForm.name = names)
    (hnames : names.Nodup) :
    ∃ fields, j.record? names = some fields ∧ ∀ f ∈ forms, f.HeldBy fields :=
  h.exists_fields hforms hnames (Nat.le_refl _)

end RecordForm

end ReviewRota
