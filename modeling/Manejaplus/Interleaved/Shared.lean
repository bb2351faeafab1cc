import Manejaplus.Sequential.Served
import Manejaplus.Effect.Pool

/-! # Single operations in a world that others change too

A row that a request holds may no longer be the stored one when it is saved.
These lemmas say what a save of an old row does to the row that is there.
-/
namespace Manejaplus
open Effect Prog
set_option autoImplicit false

variable {env : Env} {w : World}

theorem calm_shared (o : Op) (hCalm : w.Calm) : (shared env o w).2.Calm := by
  cases o with
  | store o => exact hCalm.rest (.tick _ _ rfl)
  | outside o => exact hCalm.rest (.tick _ _ (World.exec_tape env _ o _))
  | transaction o => cases o <;> exact hCalm

theorem shared_db {o : Op} (hUser : ∀ e, o ≠ .store (.saveUser e)) (hOtp : ∀ e, o ≠ .store (.saveOtp e)) :
    (shared env o w).2.db = w.db := by
  cases o with
  | store o =>
    apply exec_unsaved
    · intro e h
      exact hUser e (congrArg Op.store h)
    · intro e h
      exact hOtp e (congrArg Op.store h)
  | outside o => rfl
  | transaction o => cases o <;> rfl

theorem shared_findUser_db (q : UserWhere) :
    (shared env (.store (.findUser q)) w).2.db = w.db :=
  shared_db (fun _ h => by cases h) fun _ h => by cases h

theorem shared_saveUser_users {e e' : UserEntity} {users : UserTable}
    (hFault : w.choice.fault = false)
    (hSaved : w.db.users.save env.uuid w.choice.uuid w.choice.now e = some (e', users)) :
    (shared env (.store (.saveUser e)) w).2.db.users = users := by
  simp only [shared, World.execStore, Database.exec, hFault, Bool.false_eq_true, if_false, hSaved]
  rfl

end Manejaplus
