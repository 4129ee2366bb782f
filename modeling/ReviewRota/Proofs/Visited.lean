import ReviewRota.Session
import ReviewRota.Proofs.Composed

/-!
# ReviewRota.Proofs.Visited

The states that a scope passes through, not only the one in which it ends.
`Scope.visited` lists the sessions between the steps, those inside of
savepoints and transactions included; every step commits at most once, so
nothing that is ever committed is left out.

* `Scope.session_run_mem_visited` — the session in which a run ends is the
  last one visited;
* `Connection.Closed.visited` — an invariant that no step ends holds in all
  of them, by induction over the scope.
-/

namespace ReviewRota

/-! ## Passing through a scope -/

/-- The sessions from a step onwards: `rest` goes on unless the scope ends
with an error of this step. -/
def visitedBehind (failed needed : Bool) (s : Session) (rest : Session → List Session) :
    List Session :=
  if needed && failed then [s] else rest s

/-- The sessions that a run of a scope passes through, its start first. -/
def Scope.visited : Scope → Session → List Session
  | .done, s => [s]
  | .step a needed rest, s =>
    let (answer, after) := a.run s
    s :: visitedBehind answer.error?.isSome needed after rest.visited
  | .savepoint name body error needed rest, s =>
    match s.onConnection (Gateway.openSavepoint name) with
    | (.error _, after) => s :: visitedBehind true needed after rest.visited
    | (.ok _, opened) =>
      let inner := body.run opened
      let (result, after) := inner.session.onConnection
        (Gateway.closeSavepoint name (scopeResult inner.stopped error))
      s :: body.visited opened ++ visitedBehind (!result.isOk) needed after rest.visited
  | .transaction name body ending rest, s =>
    match s.connection.database.begin? with
    | none => s :: rest.visited s
    | some c =>
      let begun := { s with connection := c }
      let inner := body.run begun
      let (_, db) := Database.finish name (ending.outcome inner.stopped) inner.session.connection
      let after := { s with clock := inner.session.clock }
      s :: body.visited begun ++ rest.visited (after.withDatabase db)

namespace Scope

theorem session_behind_mem {rest : Session → Ran} {visited : Session → List Session}
    (h : ∀ s, (rest s).session ∈ visited s) (a : Answer) (needed : Bool) (s : Session) :
    (Ran.behind a needed s rest).session ∈ visitedBehind a.error?.isSome needed s visited := by
  unfold Ran.behind visitedBehind
  cases needed with
  | false => exact h s
  | true =>
      cases a.error? with
      | none => exact h s
      | some e => exact List.mem_singleton_self s

theorem session_behindSavepoint_mem {rest : Session → Ran} {visited : Session → List Session}
    (h : ∀ s, (rest s).session ∈ visited s) (inner : Transcript) (result : Except Error Unit)
    (needed : Bool) (s : Session) :
    (Ran.behindSavepoint inner result needed s rest).session ∈
      visitedBehind (!result.isOk) needed s visited := by
  unfold Ran.behindSavepoint visitedBehind
  cases needed with
  | false => exact h s
  | true =>
      cases result with
      | ok a => exact h s
      | error e => exact List.mem_singleton_self s

/-- A run ends in a session that it visits. -/
theorem session_run_mem_visited (scope : Scope) (s : Session) :
    (scope.run s).session ∈ scope.visited s := by
  induction scope generalizing s with
  | done => exact List.mem_singleton_self s
  | step a needed rest ih =>
      exact List.mem_cons_of_mem _ (session_behind_mem ih _ needed _)
  | «savepoint» name body error needed rest ihbody ihrest =>
      unfold Scope.run Scope.visited
      cases hopen : s.onConnection (Gateway.openSavepoint name) with
      | mk result after =>
          cases result with
          | error e =>
              have hbehind := session_behindSavepoint_mem ihrest .done (.error e) needed after
              exact List.mem_cons_of_mem _ hbehind
          | ok a =>
              refine List.mem_append_right _ ?_
              exact session_behindSavepoint_mem ihrest _ _ needed _
  | transaction name body ending rest ihbody ihrest =>
      unfold Scope.run Scope.visited
      cases hbegin : s.connection.database.begin? with
      | none => exact List.mem_cons_of_mem _ (ihrest s)
      | some c => exact List.mem_append_right _ (ihrest _)

end Scope

/-! ## Invariants of scopes -/

/-- A property of connections that no step of a scope ends.  What is asked
of transactions is that they begin with it and hand it back. -/
structure Connection.Closed (I : Connection → Prop) : Prop extends Connection.Stable I where
  request : ∀ (r : Request) (now : Int) {c : Connection}, I c →
    I { c with database := (r.run now c.database).2 }
  deferForeignKeys : ∀ {c : Connection}, I c → I c.deferForeignKeys
  nested : ∀ {c inner : Connection}, I c → c.database.begin? = some inner →
    I inner ∧ ∀ (name : String) (outcome : Outcome Unit) {final : Connection}, I final →
      I { c with database := (Database.finish name outcome final).2 }

theorem Attempt.Keeps.onConnection {α : Type} {I : Connection → Prop} {g : Gateway α}
    (hg : Attempt.Keeps I g) {s : Session} (hs : I s.connection) :
    I (s.onConnection g).2.connection := hg s.connection hs

theorem forall_mem_visitedBehind {P : Session → Prop} {rest : Session → List Session}
    (hrest : ∀ {s : Session}, P s → ∀ s' ∈ rest s, P s') (failed needed : Bool) {s : Session}
    (hs : P s) : ∀ s' ∈ visitedBehind failed needed s rest, P s' := by
  unfold visitedBehind
  split
  · intro s' hs'
    rw [List.mem_singleton.mp hs']
    exact hs
  · exact hrest hs

namespace Connection.Closed

variable {I : Connection → Prop} (hI : Connection.Closed I)

include hI

/-- No single step ends the invariant. -/
theorem action (a : Action) {s : Session} (hs : I s.connection) : I (a.run s).2.connection := by
  have hexecute : ∀ {α : Type} {ch : Change α}, ch.Sound → I (s.connection.execute ch).2 :=
    fun hch => hI.execute hch hs
  cases a with
  | call c => exact ((Gateway.composedCall c).keeps hI.toStable).onConnection hs
  | request r => exact hI.request r s.clock hs
  | «openSavepoint» name => exact (Gateway.keeps_openSavepoint hI.toStable name).onConnection hs
  | closeSavepoint name error =>
      exact (Gateway.keeps_closeSavepoint hI.toStable name _).onConnection hs
  | deferForeignKeys => exact hI.deferForeignKeys hs
  | hideTable name => exact hexecute (Table.sound_hide name)
  | restoreTable name => exact hexecute (Table.sound_restore name)
  | contents => exact hI.query Session.allRows hs
  | probe p id =>
      have hprobe := hexecute p.sound_change
      unfold Action.run
      dsimp only
      cases hrun : s.connection.execute p.change with
      | mk result after =>
          rw [hrun] at hprobe
          cases result <;> exact hprobe
  | setClock time => exact hs
  | unreadable => exact hs

/-- **Invariants**: what no step ends holds in every session that a scope
visits, however the scopes in it end. -/
theorem visited (scope : Scope) {s : Session} (hs : I s.connection) :
    ∀ s' ∈ scope.visited s, I s'.connection := by
  induction scope generalizing s with
  | done =>
      intro s' hs'
      rw [List.mem_singleton.mp hs']
      exact hs
  | step a needed rest ih =>
      intro s' hs'
      obtain rfl | hs' := List.mem_cons.mp hs'
      · exact hs
      · exact forall_mem_visitedBehind ih _ needed (hI.action a hs) s' hs'
  | «savepoint» name body error needed rest ihbody ihrest =>
      have hopened := (Gateway.keeps_openSavepoint hI.toStable name).onConnection hs
      unfold Scope.visited
      cases hopen : s.onConnection (Gateway.openSavepoint name) with
      | mk result opened =>
          rw [hopen] at hopened
          intro s' hs'
          cases result with
          | error e =>
              obtain rfl | hs' := List.mem_cons.mp hs'
              · exact hs
              · exact forall_mem_visitedBehind ihrest true needed hopened s' hs'
          | ok a =>
              have hbody := ihbody hopened _ (body.session_run_mem_visited opened)
              have hclosed := (Gateway.keeps_closeSavepoint hI.toStable name
                (scopeResult (body.run opened).stopped error)).onConnection hbody
              obtain hs' | hs' := List.mem_append.mp hs'
              · obtain rfl | hs' := List.mem_cons.mp hs'
                · exact hs
                · exact ihbody hopened s' hs'
              · exact forall_mem_visitedBehind ihrest _ needed hclosed s' hs'
  | transaction name body ending rest ihbody ihrest =>
      unfold Scope.visited
      intro s' hs'
      cases hbegin : s.connection.database.begin? with
      | none =>
          rw [hbegin] at hs'
          obtain rfl | hs' := List.mem_cons.mp hs'
          · exact hs
          · exact ihrest hs s' hs'
      | some c =>
          rw [hbegin] at hs'
          obtain ⟨hbegun, hback⟩ := hI.nested hs hbegin
          obtain hs' | hs' := List.mem_append.mp hs'
          · obtain rfl | hs' := List.mem_cons.mp hs'
            · exact hs
            · exact ihbody hbegun s' hs'
          · have hbody := ihbody (s := { s with connection := c }) hbegun _
              (body.session_run_mem_visited _)
            exact ihrest (hback name _ hbody) s' hs'

/-- What no step ends holds when the scope has run. -/
theorem run (scope : Scope) {s : Session} (hs : I s.connection) :
    I (scope.run s).session.connection :=
  hI.visited scope hs _ (scope.session_run_mem_visited s)

end Connection.Closed

end ReviewRota
