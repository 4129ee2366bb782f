import ReviewRota.Proofs.Forms

/-!
# ReviewRota.Proofs.Interchange

What is exchanged is read as what was sent.

Of each record the forms are told by those of its fields, and so a form may differ from
what is written at every level at once.  The texts of a form are those of the grammar in
`ReviewRota.Proofs.Grammar`, among them the one that is printed.

* `exchanged_read_back` — every type that is both written and read.
-/

namespace ReviewRota

/-! ## Callers and members -/

namespace Caller

def forms (c : Caller) : List FieldForm := [.of "user_id" c.id, .of "is_admin" c.admin]

instance : Formed Caller where
  InRange _ := True
  Form c := RecordForm c.forms
  form_toJson c :=
    .ofFields (.cons ⟨rfl, form_toJson c.id⟩ (.cons ⟨rfl, form_toJson c.admin⟩ .nil))
  form_kept := RecordForm.kept
  ofJson?_eq {c _} _ h := by
    obtain ⟨fields, hfields, hheld⟩ := h.exists_record (rfl : _ = fieldNames) (by decide)
    simp only [forms, List.forall_mem_cons] at hheld
    obtain ⟨hid, hadmin, -⟩ := hheld
    simp only [ofJson?, hfields, Option.bind_eq_bind, Option.bind_some, hid.get?_eq trivial,
      hadmin.get?_eq trivial]
    rfl

end Caller

namespace User

def forms (u : User) : List FieldForm :=
  [.of "user_id" u.id, .of "username" u.name, .of "team_name" u.team, .of "is_active" u.active]

instance : Formed User where
  InRange _ := True
  Form u := RecordForm u.forms
  form_toJson u :=
    .ofFields (.cons ⟨rfl, form_toJson u.id⟩ (.cons ⟨rfl, form_toJson u.name⟩
      (.cons ⟨rfl, form_toJson u.team⟩ (.cons ⟨rfl, form_toJson u.active⟩ .nil))))
  form_kept := RecordForm.kept
  ofJson?_eq {u _} _ h := by
    obtain ⟨fields, hfields, hheld⟩ := h.exists_record (rfl : _ = fieldNames) (by decide)
    simp only [forms, List.forall_mem_cons] at hheld
    obtain ⟨hid, hname, hteam, hactive, -⟩ := hheld
    simp only [ofJson?, hfields, Option.bind_eq_bind, Option.bind_some, hid.get?_eq trivial,
      hname.get?_eq trivial, hteam.optional?_eq, hactive.get?_eq trivial]
    rfl

end User

namespace NewMember

def forms (m : NewMember) : List FieldForm :=
  [.of "user_id" m.id, .of "username" m.name, .of "is_active" m.active]

instance : Formed NewMember where
  InRange _ := True
  Form m := RecordForm m.forms
  form_toJson m :=
    .ofFields (.cons ⟨rfl, form_toJson m.id⟩ (.cons ⟨rfl, form_toJson m.name⟩
      (.cons ⟨rfl, form_toJson m.active⟩ .nil)))
  form_kept := RecordForm.kept
  ofJson?_eq {m _} _ h := by
    obtain ⟨fields, hfields, hheld⟩ := h.exists_record (rfl : _ = fieldNames) (by decide)
    simp only [forms, List.forall_mem_cons] at hheld
    obtain ⟨hid, hname, hactive, -⟩ := hheld
    simp only [ofJson?, hfields, Option.bind_eq_bind, Option.bind_some, hid.get?_eq trivial,
      hname.get?_eq trivial, hactive.get?_eq trivial]
    rfl

end NewMember

namespace TeamRecord

def forms (t : TeamRecord) : List FieldForm :=
  [.of "name" t.name, .integer "created_at" t.createdAt]

instance : Formed TeamRecord where
  InRange t := FitsInt64 t.createdAt
  Form t := RecordForm t.forms
  form_toJson t := .ofFields (.cons ⟨rfl, form_toJson t.name⟩ (.cons ⟨rfl, rfl⟩ .nil))
  form_kept := RecordForm.kept
  ofJson?_eq {t _} hrange h := by
    obtain ⟨fields, hfields, hheld⟩ := h.exists_record (rfl : _ = fieldNames) (by decide)
    simp only [forms, List.forall_mem_cons] at hheld
    obtain ⟨hname, hcreated, -⟩ := hheld
    simp only [ofJson?, hfields, Option.bind_eq_bind, Option.bind_some, hname.get?_eq trivial,
      hcreated.readInt64?_eq hrange]
    rfl

end TeamRecord

namespace Team

def forms (t : Team) : List FieldForm := [.of "name" t.name, .of "members" t.members]

instance : Formed Team where
  InRange _ := True
  Form t := RecordForm t.forms
  form_toJson t :=
    .ofFields (.cons ⟨rfl, form_toJson t.name⟩ (.cons ⟨rfl, form_toJson t.members⟩ .nil))
  form_kept := RecordForm.kept
  ofJson?_eq {t _} _ h := by
    obtain ⟨fields, hfields, hheld⟩ := h.exists_record (rfl : _ = fieldNames) (by decide)
    simp only [forms, List.forall_mem_cons] at hheld
    obtain ⟨hname, hmembers, -⟩ := hheld
    simp only [ofJson?, hfields, Option.bind_eq_bind, Option.bind_some, hname.get?_eq trivial,
      hmembers.get?_eq fun _ _ => trivial]
    rfl

end Team

/-! ## Pull requests -/

instance : Formed Status where
  InRange _ := True
  Form s j := j = toJson s
  form_toJson _ := rfl
  form_kept := by rintro (_ | _) _ rfl <;> rfl
  ofJson?_eq := by rintro (_ | _) _ - rfl <;> rfl

namespace PullRequest

def forms (p : PullRequest) : List FieldForm :=
  [.of "pull_request_id" p.id, .of "pull_request_name" p.title, .of "author_id" p.author,
    .of "status" p.status, .of "assigned_reviewers" p.reviewers, .integer "created_at" p.createdAt,
    .exact "merged_at" (optionalJson p.mergedAt) (kept_optionalJson p.mergedAt)]

/-- The times have 64 bits. -/
structure Fits (p : PullRequest) : Prop where
  createdAt : FitsInt64 p.createdAt
  mergedAt : ∀ time ∈ p.mergedAt, FitsInt64 time

instance : Formed PullRequest where
  InRange := Fits
  Form p := RecordForm p.forms
  form_toJson p :=
    .ofFields (.cons ⟨rfl, form_toJson p.id⟩ (.cons ⟨rfl, form_toJson p.title⟩
      (.cons ⟨rfl, form_toJson p.author⟩ (.cons ⟨rfl, form_toJson p.status⟩
        (.cons ⟨rfl, form_toJson p.reviewers⟩ (.cons ⟨rfl, rfl⟩ (.cons ⟨rfl, rfl⟩ .nil)))))))
  form_kept := RecordForm.kept
  ofJson?_eq {p _} hrange h := by
    obtain ⟨fields, hfields, hheld⟩ := h.exists_record (rfl : _ = fieldNames) (by decide)
    simp only [forms, List.forall_mem_cons] at hheld
    obtain ⟨hid, htitle, hauthor, hstatus, hreviewers, hcreated, hmerged, -⟩ := hheld
    have hmerged : fields.orElse? "merged_at" none readOptionalInt64? = some p.mergedAt :=
      hmerged.orElse?_eq (by rintro _ rfl; exact readOptionalInt64?_optionalJson hrange.mergedAt)
        none
    simp only [ofJson?, hfields, Option.bind_eq_bind, Option.bind_some, hid.get?_eq trivial,
      htitle.get?_eq trivial, hauthor.get?_eq trivial, hstatus.get?_eq trivial,
      hreviewers.get?_eq fun _ _ => trivial, hcreated.readInt64?_eq hrange.createdAt, hmerged]
    rfl

end PullRequest

namespace Summary

def forms (p : Summary) : List FieldForm :=
  [.of "pull_request_id" p.id, .of "pull_request_name" p.title, .of "author_id" p.author,
    .of "status" p.status]

instance : Formed Summary where
  InRange _ := True
  Form p := RecordForm p.forms
  form_toJson p :=
    .ofFields (.cons ⟨rfl, form_toJson p.id⟩ (.cons ⟨rfl, form_toJson p.title⟩
      (.cons ⟨rfl, form_toJson p.author⟩ (.cons ⟨rfl, form_toJson p.status⟩ .nil))))
  form_kept := RecordForm.kept
  ofJson?_eq {p _} _ h := by
    obtain ⟨fields, hfields, hheld⟩ := h.exists_record (rfl : _ = fieldNames) (by decide)
    simp only [forms, List.forall_mem_cons] at hheld
    obtain ⟨hid, htitle, hauthor, hstatus, -⟩ := hheld
    simp only [ofJson?, hfields, Option.bind_eq_bind, Option.bind_some, hid.get?_eq trivial,
      htitle.get?_eq trivial, hauthor.get?_eq trivial, hstatus.get?_eq trivial]
    rfl

end Summary

namespace Reassignment

def forms (r : Reassignment) : List FieldForm :=
  [.of "pull_request" r.pullRequest, .of "replaced_by" r.replacedBy]

instance : Formed Reassignment where
  InRange r := r.pullRequest.Fits
  Form r := RecordForm r.forms
  form_toJson r :=
    .ofFields (.cons ⟨rfl, form_toJson r.pullRequest⟩ (.cons ⟨rfl, form_toJson r.replacedBy⟩ .nil))
  form_kept := RecordForm.kept
  ofJson?_eq {r _} hrange h := by
    obtain ⟨fields, hfields, hheld⟩ := h.exists_record (rfl : _ = fieldNames) (by decide)
    simp only [forms, List.forall_mem_cons] at hheld
    obtain ⟨hpullRequest, hreplacedBy, -⟩ := hheld
    simp only [ofJson?, hfields, Option.bind_eq_bind, Option.bind_some,
      hpullRequest.get?_eq hrange, hreplacedBy.get?_eq trivial]
    rfl

end Reassignment

namespace UserLoad

def forms (l : UserLoad) : List FieldForm :=
  [.of "user_id" l.user, .integer "assigned_prs" l.assigned]

instance : Formed UserLoad where
  InRange l := FitsInt64 l.assigned
  Form l := RecordForm l.forms
  form_toJson l := .ofFields (.cons ⟨rfl, form_toJson l.user⟩ (.cons ⟨rfl, rfl⟩ .nil))
  form_kept := RecordForm.kept
  ofJson?_eq {l _} hrange h := by
    obtain ⟨fields, hfields, hheld⟩ := h.exists_record (rfl : _ = fieldNames) (by decide)
    simp only [forms, List.forall_mem_cons] at hheld
    obtain ⟨huser, hassigned, -⟩ := hheld
    simp only [ofJson?, hfields, Option.bind_eq_bind, Option.bind_some, huser.get?_eq trivial,
      hassigned.readInt64?_eq hrange]
    rfl

end UserLoad

namespace ReviewerCount

def forms (r : ReviewerCount) : List FieldForm :=
  [.of "pull_request_id" r.pullRequest, .integer "reviewer_count" r.count,
    .of "reviewers" r.reviewers]

instance : Formed ReviewerCount where
  InRange r := r.count < 2 ^ 64
  Form r := RecordForm r.forms
  form_toJson r :=
    .ofFields (.cons ⟨rfl, form_toJson r.pullRequest⟩ (.cons ⟨rfl, rfl⟩
      (.cons ⟨rfl, form_toJson r.reviewers⟩ .nil)))
  form_kept := RecordForm.kept
  ofJson?_eq {r _} hrange h := by
    obtain ⟨fields, hfields, hheld⟩ := h.exists_record (rfl : _ = fieldNames) (by decide)
    simp only [forms, List.forall_mem_cons] at hheld
    obtain ⟨hpullRequest, hcount, hreviewers, -⟩ := hheld
    simp only [ofJson?, hfields, Option.bind_eq_bind, Option.bind_some,
      hpullRequest.get?_eq trivial, hcount.readUnsigned?_eq hrange,
      hreviewers.get?_eq fun _ _ => trivial]
    rfl

end ReviewerCount

/-! ## Settings -/

namespace Settings

def forms (s : Settings) : List FieldForm :=
  [.of "db_path" s.path, .integer "max_connections" s.maxConnections,
    .integer "min_connections" s.minConnections, .integer "acquire_timeout_secs" s.acquireTimeout,
    .integer "busy_timeout_secs" s.busyTimeout]

/-- The numbers have the sizes that an environment can give them. -/
structure Fits (s : Settings) : Prop where
  maxConnections : s.maxConnections < 2 ^ 32
  minConnections : s.minConnections < 2 ^ 32
  acquireTimeout : s.acquireTimeout < 2 ^ 64
  busyTimeout : s.busyTimeout < 2 ^ 64

instance : Formed Settings where
  InRange := Fits
  Form s := RecordForm s.forms
  form_toJson s :=
    .ofFields (.cons ⟨rfl, form_toJson s.path⟩ (.cons ⟨rfl, rfl⟩ (.cons ⟨rfl, rfl⟩
      (.cons ⟨rfl, rfl⟩ (.cons ⟨rfl, rfl⟩ .nil)))))
  form_kept := RecordForm.kept
  ofJson?_eq {s j} hrange h := by
    obtain ⟨fields, hfields, hheld⟩ :=
      h.exists_fields (rfl : _ = fieldNames) (by decide) (Nat.zero_le _)
    simp only [forms, List.forall_mem_cons] at hheld
    obtain ⟨hpath, hmax, hmin, hacquire, hbusy, -⟩ := hheld
    have hpath (default : String) : fields.orElse? "db_path" default ofJson? = some s.path :=
      hpath.orElse?_eq (fun _ => ofJson?_eq trivial) default
    -- `ofJson?` stays as it is in the reader of the path
    change (j.fields? fieldNames 0).bind _ = _
    simp only [hfields, Option.bind_eq_bind, Option.bind_some, hpath,
      hmax.orElse?_readUnsigned?_eq hrange.maxConnections,
      hmin.orElse?_readUnsigned?_eq hrange.minConnections,
      hacquire.orElse?_readUnsigned?_eq hrange.acquireTimeout,
      hbusy.orElse?_readUnsigned?_eq hrange.busyTimeout]
    rfl

end Settings

/-! ## Texts -/

/-- A value is given back by whoever reads what was sent for it. -/
structure GivenBack {α : Type} [Exchanged α] [Formed α] (a : α) : Prop where
  /-- It is written as one of its forms, and read from that. -/
  written : Form a (toJson a) ∧ (Json.parse? (toJson a).print).bind ofJson? = some a
  /-- It is read from each of its forms as that is written. -/
  printed : ∀ j, Form a j → (Json.parse? j.print).bind ofJson? = some a
  /-- It is read from every text of each of its forms. -/
  spelled : ∀ j, Form a j → ∀ s, Json.Text s j → (Json.parse? s).bind ofJson? = some a

theorem givenBack {α : Type} [Exchanged α] [Formed α] {a : α} (hrange : InRange a) :
    GivenBack a := by
  have hspelled (j : Json) (hj : Form a j) (s : String) (hs : Json.Text s j) :
      (Json.parse? s).bind ofJson? = some a := by
    rw [Json.parse?_eq_some_iff.mpr hs, Option.bind_some, ofJson?_eq hrange hj]
  have hprinted (j : Json) (hj : Form a j) : (Json.parse? j.print).bind ofJson? = some a :=
    hspelled j.kept (form_kept hj) j.print j.text_print
  exact ⟨⟨form_toJson a, hprinted _ (form_toJson a)⟩, hprinted, hspelled⟩

/-- **Interchange**: every value of the exchanged types is given back, in each of its forms
and however that is spelled. -/
theorem exchanged_read_back :
    (∀ c : Caller, GivenBack c) ∧
      (∀ s : Settings, s.Fits → GivenBack s) ∧
      (∀ m : NewMember, GivenBack m) ∧
      (∀ u : User, GivenBack u) ∧
      (∀ t : Team, GivenBack t) ∧
      (∀ t : TeamRecord, FitsInt64 t.createdAt → GivenBack t) ∧
      (∀ p : PullRequest, p.Fits → GivenBack p) ∧
      (∀ p : Summary, GivenBack p) ∧
      (∀ s : Status, GivenBack s) ∧
      (∀ r : Reassignment, r.pullRequest.Fits → GivenBack r) ∧
      (∀ l : UserLoad, FitsInt64 l.assigned → GivenBack l) ∧
      (∀ r : ReviewerCount, r.count < 2 ^ 64 → GivenBack r) :=
  ⟨fun _ => givenBack trivial, fun _ h => givenBack h, fun _ => givenBack trivial,
    fun _ => givenBack trivial, fun _ => givenBack trivial, fun _ h => givenBack h,
    fun _ h => givenBack h, fun _ => givenBack trivial, fun _ => givenBack trivial,
    fun _ h => givenBack h, fun _ h => givenBack h, fun _ h => givenBack h⟩

/-- Fields swapped around one that is not declared, and in them a record in array form. -/
theorem exchanged_read_back_shuffled :
    let p : PullRequest :=
      ⟨"p\"1\\", "a\nb", "😀", .merged, ["u2", "\u0001", ""], -9223372036854775808, some 7⟩
    let unknown : Json := .array [.decimal 15 (-1), .object [(none, .text none)], .null]
    let items : List Json := [.ofText p.id, .ofText p.title, .ofText p.author, .ofText "MERGED",
      toJson p.reviewers, .integer p.createdAt, .integer 7]
    let j : Json := .object [(some "replaced_by", .ofText "u3"), (some "id", unknown),
      (some "pull_request", .array items)]
    p.Fits ∧ (Json.parse? j.print).bind ofJson? = some (⟨p, "u3"⟩ : Reassignment) := by
  intro p unknown items j
  have hfits : p.Fits := by
    refine ⟨⟨by decide, by decide⟩, fun time htime => ?_⟩
    obtain rfl := Option.mem_some_iff.mp htime
    exact ⟨by decide, by decide⟩
  have hp : Form p (.array items) :=
    .array (.cons rfl (.cons rfl (.cons rfl (.cons rfl (.cons (form_toJson p.reviewers)
      (.cons rfl (.cons rfl .nil)))))))
  have hform : Form (⟨p, "u3"⟩ : Reassignment) j := by
    have hdeclared : Listed some (Reassignment.forms ⟨p, "u3"⟩)
        [(some "pull_request", .array items), (some "replaced_by", .ofText "u3")] :=
      .cons ⟨rfl, hp⟩ (.cons ⟨rfl, rfl⟩ .nil)
    refine .object (.intro hdeclared (fun m hm => ?_)
      (List.perm_append_comm : ([_, (some "id", unknown)] ++ [_]).Perm _))
    obtain rfl := List.mem_singleton.mp hm
    exact ⟨"id", rfl, by decide⟩
  exact ⟨hfits, (exchanged_read_back.2.2.2.2.2.2.2.2.2.1 ⟨p, "u3"⟩ hfits).printed j hform⟩

end ReviewRota
