import ReviewRota.Proofs.Visited

/-!
# ReviewRota.Proofs.CommittedStore

Every store that is ever committed satisfies the constraints of the schema,
whatever is done through the gateway, on its own, in savepoints or in
transactions, with references put off or not.

What makes this inductive is `Connection.Sound`: beside the committed store
it covers the store that a transaction works on and those that its
savepoints would restore.  Of these, references are asked for only as long
as the transaction looks at them immediately; a commit asks for the rest.

* `Connection.sound_closed` — no step of a scope ends soundness;
* `Session.committed_lawful` — the committed stores of every run.
-/

namespace ReviewRota

/-- A store whose references hold is sound whenever references are looked
at. -/
theorem Store.Sound.whenever {s : Store} (h : s.Sound .immediate) (fks : ForeignKeys) :
    s.Sound fks := by
  cases fks with
  | immediate => exact h
  | deferred => exact h.deferred

/-! ## Sound connections -/

/-- The stores of a transaction are sound, those of its savepoints
included. -/
structure Transaction.Sound (t : Transaction) : Prop where
  working : t.working.Sound t.foreignKeys
  saved : ∀ sp ∈ t.savepoints, sp.saved.Sound t.foreignKeys

/-- The committed store is sound, and so is the open transaction. -/
structure Connection.Sound (c : Connection) : Prop where
  committed : c.database.committed.Sound .immediate
  transaction : ∀ t, c.transaction = some t → t.Sound

namespace Transaction.Sound

variable {t : Transaction} {db : Database}

theorem settle (ht : t.Sound) (hdb : db.committed.Sound .immediate) : (t.settle db).Sound := by
  unfold Transaction.settle
  split
  · exact ht
  · refine ⟨hdb.whenever _, fun sp hsp => ?_⟩
    obtain ⟨other, _, rfl⟩ := List.mem_map.mp hsp
    exact hdb.whenever _

/-- A statement leaves the transaction sound, done or refused. -/
theorem wrote {α : Type} {ch : Change α} (hch : ch.Sound) (ht : t.Sound) {u : Transaction}
    (h : Connection.Wrote ch t u) : u.Sound := by
  obtain ⟨working, changed, rfl, rfl | ⟨e, happly, rfl⟩⟩ := h
  · exact ⟨ht.working, ht.saved⟩
  · exact ⟨hch ht.working happly, ht.saved⟩

/-- What a transaction commits is sound, and what it gives up does not
matter. -/
theorem committed_commitTo (ht : t.Sound) (hcan : t.canCommit = true)
    (hdb : db.committed.Sound .immediate) : (t.commitTo db).committed.Sound .immediate := by
  unfold Transaction.commitTo
  split
  · exact ht.working.immediate (Transaction.canCommit_iff.mp hcan)
  · exact hdb

/-- The savepoints from one of that name outwards are sound. -/
theorem savedFrom (ht : t.Sound) {key : String} {savepoints : List Savepoint}
    (hfrom : Connection.savepointsFrom key t.savepoints = savepoints) :
    ∀ sp ∈ savepoints, sp.saved.Sound t.foreignKeys := by
  intro sp hsp
  rw [← hfrom] at hsp
  exact ht.saved sp (Connection.mem_of_mem_savepointsFrom hsp)

theorem deferred (ht : t.Sound) : ({ t with foreignKeys := .deferred } : Transaction).Sound where
  working := ht.working.deferred
  saved sp hsp := (ht.saved sp hsp).deferred

end Transaction.Sound

namespace Connection.Sound

variable {db : Database}

/-- A connection without a transaction. -/
theorem idle (hdb : db.committed.Sound .immediate) : db.connection.Sound :=
  ⟨hdb, fun _ ht => nomatch ht⟩

/-- A connection with a transaction. -/
theorem within (hdb : db.committed.Sound .immediate) {t : Transaction} (ht : t.Sound) :
    (⟨db, some t⟩ : Connection).Sound :=
  ⟨hdb, fun _ hu => Option.some.inj hu ▸ ht⟩

end Connection.Sound

/-- No statement and no end of a transaction ends soundness. -/
theorem Connection.sound_stable :
    Database.Stable (fun db => db.committed.Sound .immediate) Connection.Sound where
  query q c hc := by
    obtain h | h := Connection.query_cases q c
    · rw [h]
      exact hc
    · rw [h]
      refine ⟨hc.committed, fun t ht => ?_⟩
      obtain ⟨u, hu, rfl⟩ := Option.map_eq_some_iff.mp ht
      exact (hc.transaction u hu).settle hc.committed
  execute {_ ch} hch c hc := by
    obtain h | ⟨_, _, e, happly, h⟩ | ⟨t, u, ht, _, hwrote, h⟩ := Connection.execute_cases ch c
    · rw [h]
      exact hc
    · rw [h]
      exact .idle (hch hc.committed happly)
    · have hsettled := (hc.transaction t ht).settle hc.committed
      rw [h]
      refine .within ?_ (hsettled.wrote hch hwrote)
      exact hc.committed
  openSavepoint {name c after} hc h := by
    obtain ⟨key, _, ⟨_, rfl⟩ | ⟨t, ht, rfl⟩⟩ := Connection.openSavepoint?_cases h
    · refine .within hc.committed ⟨hc.committed, fun sp hsp => ?_⟩
      rw [List.mem_singleton.mp hsp]
      exact hc.committed
    · have hsound := hc.transaction t ht
      refine .within hc.committed ⟨hsound.working, fun sp hsp => ?_⟩
      obtain rfl | hsp := List.mem_cons.mp hsp
      · exact hsound.working
      · exact hsound.saved sp hsp
  rollbackTo hc h := by
    obtain ⟨key, t, sp, outer, _, ht, hfrom, rfl⟩ := Connection.rollbackTo?_cases h
    have hsaved := (hc.transaction t ht).savedFrom hfrom
    exact .within hc.committed ⟨hsaved sp List.mem_cons_self, hsaved⟩
  release hc h := by
    obtain ⟨key, t, sp, outer, _, ht, hfrom, ⟨_, _, hcan, rfl⟩ | ⟨_, rfl⟩⟩ :=
      Connection.release?_cases h
    · exact .idle ((hc.transaction t ht).committed_commitTo hcan hc.committed)
    · have hsound := hc.transaction t ht
      have hsaved := hsound.savedFrom hfrom
      exact .within hc.committed ⟨hsound.working, fun other hother =>
        hsaved other (List.mem_cons_of_mem sp hother)⟩
  connected h := .idle h
  begun {db c} h hbegin := by
    unfold Database.begin? at hbegin
    split at hbegin
    · exact nomatch hbegin
    · rw [← Option.some.inj hbegin]
      refine .within ?_ ⟨?_, fun sp hsp => nomatch hsp⟩
      all_goals exact h
  database hc := hc.committed
  rolledBack {c} hc := by
    unfold Connection.rollback
    split
    · exact hc.committed
    · unfold Transaction.undoIn
      split <;> exact hc.committed
  committed hc h := by
    obtain ⟨t, ht, hcan, rfl⟩ := Connection.commit?_eq_some_iff.mp h
    exact (hc.transaction t ht).committed_commitTo hcan hc.committed

/-- Requests leave lawful stores behind. -/
theorem Request.committed_sound (r : Request) (now : Int) {db : Database}
    (h : db.committed.Sound .immediate) : (r.run now db).2.committed.Sound .immediate :=
  (Service.composedRequest now r).keeps Connection.sound_stable db h

/-- The end of a transaction leaves a sound store committed. -/
theorem Database.finish_sound {α : Type} {c : Connection} (hc : c.Sound) (operation : String)
    (outcome : Outcome α) : (finish operation outcome c).2.committed.Sound .immediate := by
  have hback := Connection.sound_stable.rolledBack hc
  cases outcome with
  | returned a =>
      cases hcommit : c.commit? with
      | none =>
          simp only [finish, hcommit]
          exact hback
      | some db =>
          simp only [finish, hcommit]
          exact Connection.sound_stable.committed hc hcommit
  | failed e => exact hback
  | panicked message => exact hback
  | cancelled => exact hback

/-- No step of a scope ends soundness. -/
theorem Connection.sound_closed : Connection.Closed Connection.Sound where
  toStable := Connection.sound_stable.toStable
  request r now _ hc := ⟨r.committed_sound now hc.committed, hc.transaction⟩
  deferForeignKeys {c} hc := by
    refine ⟨hc.committed, fun t ht => ?_⟩
    obtain ⟨u, hu, rfl⟩ := Option.map_eq_some_iff.mp ht
    exact (hc.transaction u hu).deferred
  nested hc hbegin :=
    ⟨Connection.sound_stable.begun hc.committed hbegin, fun name outcome _ hfinal =>
      ⟨Database.finish_sound hfinal name outcome, hc.transaction⟩⟩

/-! ## Sessions -/

namespace Session

/-- A session on a fresh database. -/
def fresh (clock : Int) : Session := ⟨({} : Database).connection, clock⟩

theorem sound_fresh (clock : Int) : (fresh clock).connection.Sound :=
  .idle (Store.sound_empty .immediate)

/-- **Integrity**: whatever a session does, every store that is committed on
the way satisfies the constraints of the schema. -/
theorem committed_lawful (clock : Int) (scope : Scope) :
    ∀ s ∈ scope.visited (fresh clock), s.connection.database.committed.Lawful :=
  fun s hs => (Connection.sound_closed.visited scope (sound_fresh clock) s hs).committed.lawful

/-- A user of a team that comes later is committed with it; one of a team
that never comes is not. -/
theorem committed_lawful_putOff :
    let insertUser : Action := .call (.createUser ⟨"u1", "Ann", some "core", true⟩)
    let insertTeam : Scope := .step (.call (.createTeam "core" 5)) true .done
    let moveUser : Action := .call (.updateUser ⟨"u1", "Ann", some "nowhere", true⟩)
    let scope : Scope :=
      .transaction "import"
        (.step .deferForeignKeys true
          (.step insertUser true (.savepoint "team" insertTeam none true .done)))
        .success
        (.transaction "move" (.step .deferForeignKeys true (.step moveUser true .done))
          .success .done)
    let store := (scope.run (fresh 0)).session.connection.database.committed
    store = { teams := [⟨"core", 5⟩], users := [⟨"u1", "Ann", some "core", true⟩] } ∧
      store.Lawful :=
  ⟨by decide, committed_lawful 0 _ _ (Scope.session_run_mem_visited _ _)⟩

end Session

end ReviewRota
