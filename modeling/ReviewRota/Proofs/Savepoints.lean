import ReviewRota.Proofs.CommittedStore
import ReviewRota.Proofs.WorkingStore

/-!
# ReviewRota.Proofs.Savepoints

Savepoints within an open transaction.  Savepoints are addressed by name, the
innermost one of a name is meant, and names may repeat.  What makes a scope in
a savepoint all or nothing nevertheless is a discipline of the stack: whatever
a scope opens it closes again, so that at its end its own savepoint is the
innermost of all.

* `Connection.stack` — the open savepoints with the stores that they would
  restore;
* `Gateway.Balanced` — an attempt that leaves the stack as it found it, and
  the transaction open;
* `Gateway.Nested` — scopes of gateway calls with savepoints nested to any
  depth; all of them are balanced;
* `Gateway.withinSavepoint_encloses` — how a scope in a savepoint ends.
-/

namespace ReviewRota

/-! ## The stack -/

namespace Transaction

variable {t : Transaction} {db : Database}

/-- What a store kept by the transaction stands for: the committed one, as
long as the transaction has not taken its store. -/
def standsFor (t : Transaction) (db : Database) (s : Store) : Store :=
  match t.snapshot with
  | some _ => s
  | none => db.committed

/-- The open savepoints with the stores that they would restore. -/
def stack (t : Transaction) (db : Database) : List Savepoint :=
  t.savepoints.map fun sp => { sp with saved := t.standsFor db sp.saved }

@[simp] theorem working_settle : (t.settle db).working = t.standsFor db t.working := by
  unfold settle standsFor
  split <;> simp_all

@[simp] theorem savepoints_settle : (t.settle db).savepoints = t.stack db := by
  unfold settle stack standsFor
  split <;> simp_all

@[simp] theorem settle_begun : (t.settle db).begun = t.begun := by
  unfold settle
  split <;> rfl

@[simp] theorem settle_foreignKeys : (t.settle db).foreignKeys = t.foreignKeys := by
  unfold settle
  split <;> rfl

theorem settle_snapshot (t : Transaction) (db : Database) :
    ∃ revision, (t.settle db).snapshot = some revision := by
  unfold settle
  split
  · next revision h => exact ⟨revision, h⟩
  · exact ⟨_, rfl⟩

/-- A transaction that has taken its store restores what it kept. -/
theorem stack_of_snapshot {revision : Nat} (h : t.snapshot = some revision) (db : Database) :
    t.stack db = t.savepoints := by
  simp [stack, standsFor, h]

end Transaction

namespace Connection

variable {c after : Connection} {db : Database} {t : Transaction}

/-- The open savepoints, the innermost first, with the stores that they
would restore. -/
def stack (c : Connection) : List Savepoint :=
  match c.transaction with
  | none => []
  | some t => t.stack c.database

theorem view_some : view ⟨db, some t⟩ = t.standsFor db t.working := Transaction.working_settle

/-- A transaction is open, and further savepoints on it do not end it: it
was begun, or some savepoint is open. -/
def Held (c : Connection) : Prop :=
  ∃ t, c.transaction = some t ∧ (t.begun = true ∨ c.stack ≠ [])

/-- What is left of a connection when an attempt has run on it: the same
transaction over the same database, with the same savepoints open. -/
structure Continues (c after : Connection) : Prop where
  database : after.database = { c.database with locked := after.database.locked }
  begun : after.transaction.map Transaction.begun = c.transaction.map Transaction.begun
  foreignKeys :
    after.transaction.map Transaction.foreignKeys = c.transaction.map Transaction.foreignKeys
  stack : after.stack = c.stack

theorem Continues.refl (c : Connection) : c.Continues c := ⟨rfl, rfl, rfl, rfl⟩

theorem Continues.trans {middle : Connection} (h : c.Continues middle)
    (h' : middle.Continues after) : c.Continues after where
  database := by rw [h'.database, h.database]
  begun := h'.begun.trans h.begun
  foreignKeys := h'.foreignKeys.trans h.foreignKeys
  stack := h'.stack.trans h.stack

theorem Continues.isSome_transaction (h : c.Continues after) :
    after.transaction.isSome = c.transaction.isSome := by
  simpa using congrArg Option.isSome h.begun

theorem Held.continues (hc : c.Held) (h : c.Continues after) : after.Held := by
  obtain ⟨t, ht, hheld⟩ := hc
  have hbegun := h.begun
  rw [ht, Option.map_some, Option.map_eq_some_iff] at hbegun
  obtain ⟨u, hu, hsame⟩ := hbegun
  exact ⟨u, hu, by rwa [hsame, h.stack]⟩

/-! ## Statements and the stack -/

theorem continues_query {α : Type} (q : Query α) (c : Connection) :
    c.Continues (c.query q).2 := by
  obtain h | h := query_cases q c
  · rw [h]
    exact .refl c
  · rw [h]
    obtain ⟨db, _ | t⟩ := c
    · exact .refl _
    · obtain ⟨revision, hsnapshot⟩ := t.settle_snapshot db
      refine ⟨rfl, by simp, by simp, ?_⟩
      simp [stack, Transaction.stack_of_snapshot hsnapshot]

theorem continues_execute {α : Type} (ch : Change α) {c : Connection} (hc : c.Held) :
    c.Continues (c.execute ch).2 := by
  obtain ⟨t, ht, _⟩ := hc
  obtain h | ⟨hnone, _⟩ | ⟨u, v, hu, _, ⟨working, changed, rfl, _⟩, h⟩ := execute_cases ch c
  · rw [h]
    exact .refl c
  · rw [hnone] at ht
    exact nomatch ht
  · obtain rfl : u = t := Option.some.inj (hu.symm.trans ht)
    obtain ⟨revision, hsnapshot⟩ := u.settle_snapshot c.database
    have hstack : c.stack = u.stack c.database := by simp [stack, ht]
    rw [h]
    refine ⟨rfl, by simp [ht], by simp [ht], ?_⟩
    rw [hstack, ← Transaction.savepoints_settle]
    exact Transaction.stack_of_snapshot hsnapshot _

/-- Opening puts a savepoint on the stack that would restore what is seen
now. -/
theorem openSavepoint?_of_key {name key : String} (hkey : savepointKey? name = some key)
    (ht : c.transaction = some t) :
    ∃ opened, c.openSavepoint? name = some opened ∧ opened.view = c.view ∧
      opened.database = c.database ∧ opened.stack = ⟨key, c.view⟩ :: c.stack ∧
      opened.transaction =
        some { t with savepoints := ⟨key, t.working⟩ :: t.savepoints } := by
  obtain ⟨db, _⟩ := c
  subst ht
  simp only [openSavepoint?, hkey, Option.map_some, view_some]
  exact ⟨_, rfl, view_some, rfl, rfl, rfl⟩

/-- What a stack that is not empty says of the transaction. -/
theorem exists_of_stack_eq_cons {sp : Savepoint} {outer : List Savepoint}
    (h : c.stack = sp :: outer) :
    ∃ t saved rest, c.transaction = some t ∧ t.savepoints = ⟨sp.key, saved⟩ :: rest ∧
      t.standsFor c.database saved = sp.saved ∧
      ({ t with savepoints := rest } : Transaction).stack c.database = outer := by
  obtain ⟨db, _ | t⟩ := c
  · exact nomatch h
  · obtain ⟨⟨key, saved⟩, rest, hrest, rfl, houter⟩ := List.map_eq_cons_iff.mp h
    exact ⟨t, saved, rest, rfl, hrest, rfl, houter⟩

/-- Rolling back to the innermost savepoint restores its store. -/
theorem rollbackTo?_of_stack {name : String} {sp : Savepoint} {outer : List Savepoint}
    (hkey : savepointKey? name = some sp.key) (h : c.stack = sp :: outer) :
    ∃ t saved, c.transaction = some t ∧ t.standsFor c.database saved = sp.saved ∧
      c.rollbackTo? name = some { c with transaction := some { t with working := saved } } := by
  obtain ⟨t, saved, rest, ht, hrest, hsaved, _⟩ := exists_of_stack_eq_cons h
  refine ⟨t, saved, ht, hsaved, ?_⟩
  simp only [rollbackTo?, hkey, ht, hrest, Option.bind_eq_bind, Option.bind_some,
    Gateway.savepointsFrom_self]
  rw [← hrest]
  rfl

/-- Releasing the innermost savepoint takes it off the stack, unless the
transaction ends with it. -/
theorem release?_of_stack {name : String} {sp : Savepoint} {outer : List Savepoint}
    (hkey : savepointKey? name = some sp.key) (h : c.stack = sp :: outer) :
    ∃ t rest, c.transaction = some t ∧
      ({ t with savepoints := rest } : Transaction).stack c.database = outer ∧
      c.release? name =
        if outer = [] ∧ t.begun = false then c.commit?.map Database.connection
        else some { c with transaction := some { t with savepoints := rest } } := by
  obtain ⟨t, saved, rest, ht, hrest, _, houter⟩ := exists_of_stack_eq_cons h
  have hempty : outer = [] ↔ rest = [] := by
    rw [← houter]
    exact List.map_eq_nil_iff
  refine ⟨t, rest, ht, houter, ?_⟩
  simp only [release?, hkey, ht, hrest, Option.bind_eq_bind, Option.bind_some,
    Gateway.savepointsFrom_self, Bool.not_eq_true', hempty]
  rfl

/-- What a release does not end was begun, or has another savepoint. -/
theorem begun_or_of_stays {outer : List Savepoint} (h : ¬(outer = [] ∧ t.begun = false)) :
    t.begun = true ∨ outer ≠ [] := by
  cases hbegun : t.begun with
  | true => exact Or.inl rfl
  | false => exact Or.inr fun hnone => h ⟨hnone, hbegun⟩

section Scope

/-! ### Around a scope

A savepoint is opened on `c`, a scope leads from `opened` to `last`, and the
savepoint is closed. -/

variable {name key : String} (hkey : savepointKey? name = some key) {opened last : Connection}
  (hc : c.Held) (hopen : c.openSavepoint? name = some opened) (hlast : opened.Continues last)

include hkey hc hopen

theorem held_of_openSavepoint? : opened.Held := by
  obtain ⟨t, ht, _⟩ := hc
  obtain ⟨_, hopened, _, _, hstack, htransaction⟩ := openSavepoint?_of_key hkey ht
  obtain rfl := Option.some.inj (hopened.symm.trans hopen)
  exact ⟨_, htransaction, Or.inr (by simp [hstack])⟩

include hlast

/-- The scope's own savepoint is the innermost again. -/
theorem stack_of_continues : last.stack = ⟨key, c.view⟩ :: c.stack := by
  obtain ⟨t, ht, _⟩ := hc
  obtain ⟨_, hopened, _, _, hstack, _⟩ := openSavepoint?_of_key hkey ht
  obtain rfl := Option.some.inj (hopened.symm.trans hopen)
  rw [hlast.stack, hstack]

/-- Rolling back undoes what the scope wrote, and nothing else. -/
theorem rollbackTo?_of_continues :
    ∃ middle, last.rollbackTo? name = some middle ∧ opened.Continues middle ∧
      middle.view = c.view := by
  have hstack := stack_of_continues hkey hc hopen hlast
  obtain ⟨t, saved, ht, hsaved, hback⟩ := rollbackTo?_of_stack hkey hstack
  obtain ⟨db, _⟩ := last
  subst ht
  exact ⟨_, hback, ⟨hlast.database, hlast.begun, hlast.foreignKeys, hlast.stack⟩,
    view_some.trans hsaved⟩

/-- Releasing keeps what is seen, and the transaction goes on. -/
theorem release?_of_continues :
    ∃ after, last.release? name = some after ∧ c.Continues after ∧ after.view = last.view := by
  have hstack := stack_of_continues hkey hc hopen hlast
  obtain ⟨t₀, ht₀, hheld⟩ := hc
  obtain ⟨_, hopened, _, hdatabase, _, htransaction⟩ := openSavepoint?_of_key hkey ht₀
  obtain rfl := Option.some.inj (hopened.symm.trans hopen)
  obtain ⟨t, rest, ht, hrest, hrelease⟩ := release?_of_stack hkey hstack
  have hbegun : t.begun = t₀.begun := by simpa [ht, htransaction] using hlast.begun
  have hforeignKeys : t.foreignKeys = t₀.foreignKeys := by
    simpa [ht, htransaction] using hlast.foreignKeys
  have hstays : ¬(c.stack = [] ∧ t.begun = false) := by
    rintro ⟨hnone, hopening⟩
    rw [hbegun] at hopening
    simp [hopening, hnone] at hheld
  rw [if_neg hstays] at hrelease
  refine ⟨_, hrelease, ⟨?_, by simp [ht₀, hbegun], by simp [ht₀, hforeignKeys], hrest⟩, ?_⟩
  · rw [← hdatabase]
    exact hlast.database
  · obtain ⟨db, _⟩ := last
    subst ht
    rw [view_some, view_some]
    rfl

end Scope

end Connection

namespace Gateway

variable {α β : Type}

/-! ## Balanced attempts -/

/-- On a connection with an open transaction, the attempt leaves the
transaction open and the stack of savepoints as it found it. -/
def Balanced (g : Gateway α) : Prop := ∀ c : Connection, c.Held → c.Continues (g c).2

theorem Balanced.ofExcept (r : Except Error α) : Balanced (Attempt.ofExcept r) :=
  fun c _ => .refl c

theorem Balanced.read (operation id : String) (q : Query α) :
    Balanced (read operation id q) := by
  intro c _
  have hquery := Connection.continues_query q c
  unfold Gateway.read
  cases hrun : c.query q with
  | mk result after =>
      rw [hrun] at hquery
      cases result <;> exact hquery

theorem Balanced.write (operation id : String) (meaning : Constraint → Option Error)
    (ch : Change α) : Balanced (write operation id meaning ch) := by
  intro c hc
  have hexecute := Connection.continues_execute ch hc
  unfold Gateway.write
  cases hrun : c.execute ch with
  | mk result after =>
      rw [hrun] at hexecute
      cases result <;> exact hexecute

theorem Balanced.bind {g : Gateway α} {next : α → Gateway β} (hg : Balanced g)
    (hnext : ∀ a, Balanced (next a)) : Balanced (g >>= next) := by
  intro c hc
  have hfirst := hg c hc
  rw [Attempt.bind_run]
  cases hrun : g c with
  | mk result middle =>
      rw [hrun] at hfirst
      cases result with
      | error e => exact hfirst
      | ok a => exact hfirst.trans (hnext a middle (hc.continues hfirst))

/-- Going on after an error changes nothing on the connection. -/
theorem Balanced.result {g : Gateway α} (hg : Balanced g) : Balanced g.result :=
  fun c hc => hg c hc

section Savepoint

variable {name key : String} (hname : readSavepoint? name = some (key, false))
  {c opened : Connection}

include hname

theorem withinSavepoint_of_open (hopen : c.openSavepoint? name = some opened)
    (scope : Gateway α) :
    withinSavepoint name scope c = closeSavepoint name (scope opened).1 (scope opened).2 := by
  have hopened : openSavepoint name c = (.ok (), opened) := by
    simp only [openSavepoint, hopen, unlessFollowed_of_read hname]
  rw [withinSavepoint, Attempt.bind_run, hopened]
  simp only [Attempt.bind_run, Attempt.result]

/-- What is seen at the end of a scope in a savepoint: what the scope has
made of it, or what was seen before if the scope has failed. -/
def viewAfter (c : Connection) (r : Except Error α) (last : Connection) : Store :=
  match r with
  | .ok _ => last.view
  | .error _ => c.view

/-- Closing the savepoint of a balanced scope leads back to the stack from
before. -/
theorem closeSavepoint_of_continues (hc : c.Held)
    (hopen : c.openSavepoint? name = some opened) {last : Connection}
    (hlast : opened.Continues last) (r : Except Error α) :
    ∃ after, closeSavepoint name r last = (r, after) ∧ c.Continues after ∧
      after.view = viewAfter c r last := by
  have hkey := savepointKey?_of_read hname
  cases r with
  | ok a =>
      obtain ⟨after, hrelease, hafter, hview⟩ :=
        Connection.release?_of_continues hkey hc hopen hlast
      refine ⟨after, ?_, hafter, hview⟩
      simp only [closeSavepoint, hrelease, unlessFollowed_of_read hname]
  | error e =>
      obtain ⟨middle, hback, hmiddle, hundone⟩ :=
        Connection.rollbackTo?_of_continues hkey hc hopen hlast
      obtain ⟨after, hrelease, hafter, hview⟩ :=
        Connection.release?_of_continues hkey hc hopen hmiddle
      refine ⟨after, ?_, hafter, hview.trans hundone⟩
      simp only [closeSavepoint, hback, hrelease, Option.getD_some]

/-- A balanced scope in a savepoint answers what it answers, is undone if it
fails, and leads back to the stack from before. -/
theorem withinSavepoint_of_balanced (hc : c.Held) {scope : Gateway α} (hscope : Balanced scope) :
    ∃ opened, c.openSavepoint? name = some opened ∧ opened.view = c.view ∧
      (withinSavepoint name scope c).1 = (scope opened).1 ∧
      (withinSavepoint name scope c).2.view = viewAfter c (scope opened).1 (scope opened).2 ∧
      c.Continues (withinSavepoint name scope c).2 := by
  have hkey := savepointKey?_of_read hname
  obtain ⟨t, ht, _⟩ := id hc
  obtain ⟨opened, hopen, hview, _⟩ := Connection.openSavepoint?_of_key hkey ht
  have hlast := hscope opened (Connection.held_of_openSavepoint? hkey hc hopen)
  obtain ⟨after, hclose, hafter, hlastView⟩ :=
    closeSavepoint_of_continues hname hc hopen hlast (scope opened).1
  refine ⟨opened, hopen, hview, ?_⟩
  rw [withinSavepoint_of_open hname hopen, hclose]
  exact ⟨rfl, hlastView, hafter⟩

end Savepoint

/-- Without a name no savepoint is opened, and no scope runs. -/
theorem withinSavepoint_of_unnamed {name : String} (hname : savepointKey? name = none)
    (scope : Gateway α) (c : Connection) :
    withinSavepoint name scope c = (.error (.storage name "savepoint"), c) := by
  rw [withinSavepoint, Attempt.bind_run]
  simp [openSavepoint, Connection.openSavepoint?, hname]

theorem Balanced.withinSavepoint {name : String} (hname : isFollowed name = false)
    {scope : Gateway α} (hscope : Balanced scope) : Balanced (withinSavepoint name scope) := by
  intro c hc
  cases hread : readSavepoint? name with
  | none =>
      rw [withinSavepoint_of_unnamed (by rw [savepointKey?, hread, Option.map_none])]
      exact .refl c
  | some named =>
      obtain ⟨key, further⟩ := named
      have hfurther : further = false := by simpa [isFollowed, hread] using hname
      subst hfurther
      obtain ⟨_, _, _, _, _, hafter⟩ := withinSavepoint_of_balanced hread hc hscope
      exact hafter

/-- What the gateway and the operations are composed of is balanced. -/
theorem Composed.balanced {g : Gateway α} (hg : Composed g) : Balanced g := by
  induction hg with
  | pure a => exact .ofExcept (.ok a)
  | fail e => exact .ofExcept (.error e)
  | read operation id q => exact .read operation id q
  | write operation id meaning _ => exact .write operation id meaning _
  | bind hg hnext ihg ihnext => exact ihg.bind ihnext
  | withinSavepoint hname hscope ih =>
      exact ih.withinSavepoint (by rw [isFollowed, hname, Option.any_some])

/-! ## Nested savepoints -/

/-- Scopes made of gateway calls, with savepoints around parts of them nested
to any depth.  What comes next may depend on every answer so far, and an
error need not end a scope. -/
inductive Nested : {α : Type} → Gateway α → Prop where
  | answered {α : Type} (r : Except Error α) : Nested (Attempt.ofExcept r)
  | call (c : Call) : Nested c.run
  | caught {α : Type} {g : Gateway α} (hg : Nested g) : Nested g.result
  | bind {α β : Type} {g : Gateway α} {next : α → Gateway β} (hg : Nested g)
      (hnext : ∀ a, Nested (next a)) : Nested (g >>= next)
  | withinSavepoint {α : Type} {name : String} {scope : Gateway α}
      (hname : isFollowed name = false) (hscope : Nested scope) :
      Nested (withinSavepoint name scope)

theorem Nested.balanced {g : Gateway α} (hg : Nested g) : Balanced g := by
  induction hg with
  | answered r => exact .ofExcept r
  | call c => exact (composedCall c).balanced
  | caught hg ih => exact ih.result
  | bind hg hnext ihg ihnext => exact ihg.bind ihnext
  | withinSavepoint hname hscope ih => exact ih.withinSavepoint hname

-- a name in the sense of `Encloses.named`
example : readSavepoint? "a; SELECT 1" = some ("a", false) := by cbv

end Gateway

/-! ## Open transactions -/

/-- A transaction, if one is open, is held open. -/
def Connection.Stands (c : Connection) : Prop := c.transaction.isSome → c.Held

theorem Connection.Stands.within {db : Database} {t : Transaction}
    (ht : t.begun = true ∨ t.savepoints ≠ []) : Connection.Stands ⟨db, some t⟩ :=
  fun _ => ⟨t, rfl, ht.imp_right fun hopen hnone => hopen (List.map_eq_nil_iff.mp hnone)⟩

theorem Connection.Stands.held {c : Connection} (hc : c.Stands) {t : Transaction}
    (ht : c.transaction = some t) : t.begun = true ∨ t.savepoints ≠ [] := by
  obtain ⟨db, _⟩ := c
  subst ht
  obtain ⟨u, hu, hheld⟩ := hc rfl
  obtain rfl := Option.some.inj hu
  exact hheld.imp_right fun hopen hnone => hopen (List.map_eq_nil_iff.mpr hnone)

theorem Connection.Stands.continues {c after : Connection} (hc : c.Stands)
    (h : c.Continues after) : after.Stands := by
  intro hopen
  rw [h.isSome_transaction] at hopen
  exact (hc hopen).continues h

/-- No step of a scope leaves a transaction open that nothing holds open. -/
theorem Connection.stands_closed : Connection.Closed Connection.Stands where
  query q c hc := hc.continues (c.continues_query q)
  execute {_ ch} _ c hc := by
    obtain ⟨db, _ | t⟩ := c
    · obtain ⟨_, h⟩ | ⟨_, _, _, h⟩ := execute_connection_cases ch db
      all_goals
        intro hopen
        rw [show (⟨db, none⟩ : Connection) = db.connection from rfl, h] at hopen
        exact nomatch hopen
    · exact hc.continues (continues_execute ch (hc rfl))
  openSavepoint hc h := by
    obtain ⟨key, _, ⟨_, rfl⟩ | ⟨t, _, rfl⟩⟩ := openSavepoint?_cases h
    · exact .within (Or.inr (List.cons_ne_nil _ _))
    · exact .within (Or.inr (List.cons_ne_nil _ _))
  rollbackTo hc h := by
    obtain ⟨key, t, sp, outer, _, _, _, rfl⟩ := rollbackTo?_cases h
    exact .within (Or.inr (List.cons_ne_nil _ _))
  release hc h := by
    obtain ⟨key, t, sp, outer, _, _, _, ⟨_, _, _, rfl⟩ | ⟨hstays, rfl⟩⟩ := release?_cases h
    · exact fun hopen => nomatch hopen
    · exact .within (begun_or_of_stays hstays)
  request r now c hc := by
    obtain ⟨db, _ | t⟩ := c
    · exact fun hopen => nomatch hopen
    · exact .within (hc.held rfl)
  deferForeignKeys {c} hc := by
    obtain ⟨db, _ | t⟩ := c
    · exact fun hopen => nomatch hopen
    · have hheld := hc.held rfl
      exact .within hheld
  nested {c inner} hc hbegin := by
    obtain ⟨_, rfl⟩ := Database.begin?_eq_some_iff.mp hbegin
    refine ⟨.within (Or.inl rfl), fun _ _ _ _ => ?_⟩
    obtain ⟨db, _ | t⟩ := c
    · exact fun hopen => nomatch hopen
    · exact .within (hc.held rfl)

/-- Whatever a session does, an open transaction is held open. -/
theorem Session.held_of_open (clock : Int) (scope : Scope) :
    ∀ s ∈ scope.visited (fresh clock), s.connection.transaction.isSome → s.connection.Held :=
  Connection.stands_closed.visited scope fun hopen => nomatch hopen

end ReviewRota
