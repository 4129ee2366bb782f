import ReviewRota.Proofs.Printing
import ReviewRota.PullRequest

/-!
# ReviewRota.Proofs.RowReading

Which rows are read as a pull request, and as which.

The status has to be one of the two by its text, and the reviewers have to be JSON
text of an array of texts, by the grammar of `ReviewRota.Proofs.Grammar`.  Nothing
else counts: how the array is spelled does not matter, and so a row is read as the
pull request that it was written for, whoever wrote it.

* `PullRequestRow.read_exactly` — what every row is read as, or why it is not.
-/

namespace ReviewRota

/-! ## Arrays of texts -/

theorem ofJson?_text_eq_some_iff {j : Json} {s : String} :
    ofJson? j = some s ↔ j = toJson s := by
  cases j with
  | text value =>
      constructor
      · intro h
        obtain rfl : value = some s := h
        rfl
      · intro h
        cases h
        rfl
  | null | bool | integer | decimal | array | object =>
      constructor
      · intro h
        cases h
      · intro h
        cases h

theorem readAll_texts_eq_some_iff {items : List Json} {texts : List String} :
    readAll items = some texts ↔ items = texts.map toJson := by
  induction items generalizing texts with
  | nil => cases texts <;> simp [readAll]
  | cons j rest ih =>
      constructor
      · intro h
        rw [readAll] at h
        split at h
        · rename_i s others hs hothers
          cases h
          rw [List.map_cons, ofJson?_text_eq_some_iff.mp hs, ih.mp hothers]
        · cases h
      · intro h
        cases texts with
        | nil => cases h
        | cons s others =>
            obtain ⟨rfl, rfl⟩ := List.cons.inj h
            rw [readAll, ofJson?_text_eq_some_iff.mpr rfl, ih.mpr rfl]

/-- As a list of texts an array of texts is read, and nothing else. -/
theorem ofJson?_texts_eq_some_iff {j : Json} {texts : List String} :
    ofJson? j = some texts ↔ j = toJson texts := by
  cases j with
  | array items =>
      refine readAll_texts_eq_some_iff.trans ?_
      exact ⟨congrArg Json.array, Json.array.inj⟩
  | null | bool | integer | decimal | text | object =>
      constructor
      · intro h
        cases h
      · intro h
        cases h

namespace Json

theorem parse?_bind_texts_eq_some_iff {s : String} {texts : List String} :
    (parse? s).bind ofJson? = some texts ↔ Text s (toJson texts) := by
  simp only [Option.bind_eq_some_iff, parse?_eq_some_iff, ofJson?_texts_eq_some_iff,
    exists_eq_right]

theorem parse?_bind_texts_eq_none_iff {s : String} :
    ((parse? s).bind ofJson? : Option (List String)) = none ↔
      ∀ texts : List String, ¬Text s (toJson texts) := by
  simp only [Option.eq_none_iff_forall_ne_some, ne_eq, parse?_bind_texts_eq_some_iff]

theorem kept_texts (texts : List String) : (toJson texts).kept = toJson texts := by
  have hitems : keptItems (texts.map toJson) = texts.map toJson := by
    rw [keptItems_eq_map, List.map_map]
    rfl
  exact congrArg Json.array hitems

theorem text_print_texts (texts : List String) : Text (toJson texts).print (toJson texts) := by
  have htext := (toJson texts).text_print
  rwa [kept_texts] at htext

end Json

/-! ## Rows -/

theorem Status.isSome_ofText?_iff {s : String} :
    (∃ status, ofText? s = some status) ↔ s = "OPEN" ∨ s = "MERGED" := by
  simp only [ofText?_eq_some_iff]
  constructor
  · rintro ⟨status, rfl⟩
    cases status with
    | opened => exact Or.inl rfl
    | merged => exact Or.inr rfl
  · rintro (rfl | rfl)
    · exact ⟨.opened, rfl⟩
    · exact ⟨.merged, rfl⟩

/-- The row of a pull request whose reviewers are spelled as that text. -/
def PullRequest.row (p : PullRequest) (reviewers : String) : PullRequestRow :=
  ⟨p.id, p.title, p.author, p.status.text, p.createdAt, p.mergedAt, reviewers⟩

namespace PullRequestRow

variable {r : PullRequestRow}

theorem read_of_texts {status : Status} (hstatus : Status.ofText? r.status = some status)
    {reviewers : List String}
    (hreviewers : (Json.parse? r.reviewers).bind ofJson? = some reviewers) :
    r.read = .ok ⟨r.id, r.title, r.author, status, reviewers, r.createdAt, r.mergedAt⟩ := by
  simp only [read, hstatus, hreviewers]

theorem read_of_badStatus (hstatus : Status.ofText? r.status = none) :
    r.read = .error (.unknownStatus r.status) := by
  simp only [read, hstatus]

theorem read_of_badReviewers {status : Status} (hstatus : Status.ofText? r.status = some status)
    (hreviewers : ((Json.parse? r.reviewers).bind ofJson? : Option (List String)) = none) :
    r.read = .error .badJson := by
  simp only [read, hstatus, hreviewers]

theorem read_eq_ok_iff {p : PullRequest} :
    r.read = .ok p ↔ r = p.row r.reviewers ∧ Json.Text r.reviewers (toJson p.reviewers) := by
  rw [← Json.parse?_bind_texts_eq_some_iff]
  constructor
  · intro h
    cases hstatus : Status.ofText? r.status with
    | none => exact nomatch (read_of_badStatus hstatus).symm.trans h
    | some status =>
        cases hreviewers : ((Json.parse? r.reviewers).bind ofJson? : Option (List String)) with
        | none => exact nomatch (read_of_badReviewers hstatus hreviewers).symm.trans h
        | some reviewers =>
            rw [read_of_texts hstatus hreviewers] at h
            cases h
            refine ⟨?_, rfl⟩
            rw [PullRequest.row, ← Status.ofText?_eq_some_iff.mp hstatus]
  · rintro ⟨hrow, hreviewers⟩
    have hstatus : Status.ofText? r.status = some p.status := by
      rw [hrow]
      exact Status.ofText?_text p.status
    rw [read_of_texts hstatus hreviewers, hrow]
    rfl

/-- What a row is read as. -/
structure ReadExactly (r : PullRequestRow) : Prop where
  /-- It takes one of the two statuses, letter for letter, and an array of texts. -/
  succeeds : (∃ p, r.read = .ok p) ↔
    (r.status = "OPEN" ∨ r.status = "MERGED") ∧
      ∃ reviewers : List String, Json.Text r.reviewers (toJson reviewers)
  /-- The pull request has the texts of the array as its reviewers, in their order, and all
  else from the row. -/
  pullRequest : ∀ p, r.read = .ok p ↔
    r = p.row r.reviewers ∧ Json.Text r.reviewers (toJson p.reviewers)
  /-- A bad status is reported first. -/
  badStatus : ¬(r.status = "OPEN" ∨ r.status = "MERGED") →
    r.read = .error (.unknownStatus r.status)
  badReviewers : r.status = "OPEN" ∨ r.status = "MERGED" →
    (∀ reviewers : List String, ¬Json.Text r.reviewers (toJson reviewers)) →
      r.read = .error .badJson

theorem readExactly (r : PullRequestRow) : r.ReadExactly where
  succeeds := by
    constructor
    · rintro ⟨p, hp⟩
      obtain ⟨hrow, hreviewers⟩ := read_eq_ok_iff.mp hp
      refine ⟨Status.isSome_ofText?_iff.mp ⟨p.status, ?_⟩, p.reviewers, hreviewers⟩
      rw [hrow]
      exact Status.ofText?_text p.status
    · rintro ⟨hstatus, reviewers, hreviewers⟩
      obtain ⟨status, hstatus⟩ := Status.isSome_ofText?_iff.mpr hstatus
      exact ⟨_, read_of_texts hstatus (Json.parse?_bind_texts_eq_some_iff.mpr hreviewers)⟩
  pullRequest p := read_eq_ok_iff
  badStatus h := by
    refine read_of_badStatus (Option.eq_none_iff_forall_ne_some.mpr fun status hstatus => ?_)
    exact h (Status.isSome_ofText?_iff.mp ⟨status, hstatus⟩)
  badReviewers h hreviewers := by
    obtain ⟨status, hstatus⟩ := Status.isSome_ofText?_iff.mpr h
    exact read_of_badReviewers hstatus (Json.parse?_bind_texts_eq_none_iff.mpr hreviewers)

/-- **Rows**: every row is read as what its two texts say, or refused for the first of
them that says nothing; and a pull request is read back from its row, whatever its
reviewers are called and however their array is spelled. -/
theorem read_exactly :
    (∀ r : PullRequestRow, r.ReadExactly) ∧
      ∀ p : PullRequest, (p.row (toJson p.reviewers).print).read = .ok p ∧
        ∀ text, Json.Text text (toJson p.reviewers) → (p.row text).read = .ok p := by
  refine ⟨readExactly, fun p => ?_⟩
  have hback (text : String) (htext : Json.Text text (toJson p.reviewers)) :
      (p.row text).read = .ok p := read_eq_ok_iff.mpr ⟨rfl, htext⟩
  exact ⟨hback _ (Json.text_print_texts p.reviewers), hback⟩

/-- Escapes and white space make no difference. -/
theorem read_exactly_escaped :
    let p : PullRequest := ⟨"p1", "Search", "u1", .merged, ["u2", "😀"], 3, some 9⟩
    let text := " [\"u\\u0032\" ,\n\"\\ud83d\\ude00\"]\t"
    Json.Text text (toJson p.reviewers) ∧ (p.row text).read = .ok p := by
  intro p text
  have htext : Json.Text text (toJson p.reviewers) :=
    Json.parse?_bind_texts_eq_some_iff.mp (by decide +kernel)
  exact ⟨htext, (read_exactly.2 p).2 text htext⟩

end PullRequestRow

end ReviewRota
