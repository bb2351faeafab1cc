import Manejaplus.Effect.Performed
import Manejaplus.Tenancy.TenantService

/-! # The answer to the deletion of a schema

The service reports a failure by `null`, the controller waits for an exception.
-/
namespace Manejaplus
open Effect Prog
set_option autoImplicit false

structure HttpException where
  message : String
  status : Nat
  deriving DecidableEq, Repr

/-- `error.message`; those left out have fixed messages that are looked for nowhere. -/
def Exception.message : Exception → Option String
  | .badRequest message => some message
  | .unauthorized message => some message
  | .error message => some message
  | _ => none

namespace PersistenceController
variable {W : Type}

def publicRefused : String := "No se puede eliminar el esquema public"

/-- The `catch` block of `deleteSchema`. -/
def failure (error : Exception) : HttpException :=
  if error.message = some publicRefused then ⟨publicRefused, 400⟩
  else ⟨"Failed to delete schema", 500⟩

/-- What `DELETE persistence/schema/:schemaName` answers: the message, or an exception. -/
def answer (h : Handler tenancy Exception W) (cases : CaseMapping) (schemaName : String) (w : W) :
    Except HttpException String :=
  (run h (deleteSchema cases schemaName) w).1.mapError failure

end PersistenceController

namespace DeleteSchema
open TenantService PersistenceController
variable {W : Type} {h : Handler tenancy Exception W} {cases : CaseMapping} {n : String} {w : W}

def BothSucceeded (h : Handler tenancy Exception W) (cases : CaseMapping) (n : String) (w : W) :
    Prop :=
  ∃ s s', [s, s'].Sublist (performed h (deleteSchema cases n) w) ∧
    (s.op = .query (dropTables n) ∧ s.answer.isOk) ∧ s'.op = .query (dropSchema n) ∧ s'.answer.isOk

/-- The answer says what has become of the schema. -/
structure Truthful (h : Handler tenancy Exception W) (cases : CaseMapping) (n : String) (w : W) :
    Prop where
  deleted : ∀ message, answer h cases n w = .ok message → BothSucceeded h cases n w
  refused : (∃ e, answer h cases n w = .error e ∧ e.status = 400) ↔ cases.toLowerCase n = "public"
  failed : (∃ e, answer h cases n w = .error e ∧ e.status = 500) ↔
    cases.toLowerCase n ≠ "public" ∧ ¬ BothSucceeded h cases n w

/-- Sent one after the other, neither statement fails. -/
def NothingFails (h : Handler tenancy Exception W) (n : String) (w : W) : Prop :=
  (h (.query (dropTables n)) w).1.isOk ∧
    (h (.query (dropSchema n)) (h (.query (dropTables n)) w).2).1.isOk

instance : Decidable (NothingFails h n w) := inferInstanceAs (Decidable (_ ∧ _))

/-- A name that is refused sends nothing; else the second statement is sent if the first succeeds. -/
theorem performed_deleteSchema : performed h (deleteSchema cases n) w =
    if cases.toLowerCase n = "public" then []
    else once h (.query (dropTables n)) w ::
      if (h (.query (dropTables n)) w).1.isOk then
        [once h (.query (dropSchema n)) (h (.query (dropTables n)) w).2]
      else [] := by
  apply (performed_map h (deleteSchemaClient cases n) _ w).trans
  apply (performed_catching h (fun _ _ => rfl) w).trans
  split
  · rfl
  · rw [bind_eq, performed_bind, Tenancy.perform, performed_perform, run_perform]
    match h (.query (dropTables n)) w with
    | (.error e, w₁) => rfl
    | (.ok a, w₁) =>
      exact congrArg (List.cons _) ((performed_map h _ _ w₁).trans (performed_perform h _ w₁))

/-- The service never throws, and says by its `null` that something failed. -/
theorem run_deleteSchemaClient : (run h (deleteSchemaClient cases n) w).1 =
    .ok (if cases.toLowerCase n ≠ "public" ∧ NothingFails h n w then some n else none) := by
  generalize hRun : run h (deleteSchemaClient cases n) w = next
  obtain ⟨r, w'⟩ := next
  obtain ⟨r', hTry, rfl⟩ := run_default_cases h hRun
  by_cases hPublic : cases.toLowerCase n = "public"
  · rw [if_pos hPublic] at hTry
    cases hTry
    rw [if_neg fun hBoth => hBoth.1 hPublic]
    rfl
  · rw [if_neg hPublic, bind_eq, run_bind, Tenancy.perform, run_perform] at hTry
    apply congrArg Except.ok
    match hFirst : h (.query (dropTables n)) w with
    | (.error e, w₁) =>
      rw [hFirst] at hTry
      cases hTry
      refine (if_neg fun hBoth => ?_).symm
      have hOk := hBoth.2.1
      rw [hFirst] at hOk
      cases hOk
    | (.ok _, w₁) =>
      rw [hFirst] at hTry
      obtain ⟨r, hSecond, rfl⟩ := run_map_cases h hTry
      rw [Tenancy.perform, run_perform] at hSecond
      simp only [NothingFails, hFirst, hSecond, ne_eq, hPublic, not_false_eq_true, true_and]
      cases r <;> rfl

variable (h cases n w) in
theorem answer_eq : answer h cases n w = .ok ("Schema " ++ n ++ " deleted successfully") := by
  have hClient := @run_deleteSchemaClient _ h cases n w
  rw [answer, deleteSchema, bind_eq, run_bind]
  generalize run h (deleteSchemaClient cases n) w = next at hClient ⊢
  obtain ⟨r, w'⟩ := next
  cases hClient
  rfl

theorem bothSucceeded_iff :
    BothSucceeded h cases n w ↔ cases.toLowerCase n ≠ "public" ∧ NothingFails h n w := by
  rw [BothSucceeded, performed_deleteSchema]
  by_cases hPublic : cases.toLowerCase n = "public"
  · rw [if_pos hPublic]
    refine iff_of_false ?_ fun hBoth => hBoth.1 hPublic
    rintro ⟨_, _, hSent, _⟩
    cases hSent
  · rw [if_neg hPublic, and_iff_right hPublic, NothingFails]
    by_cases hFirst : (h (.query (dropTables n)) w).1.isOk = true
    · rw [if_pos hFirst, and_iff_right hFirst]
      constructor
      · rintro ⟨s, s', hSent, _, _, hSecond⟩
        cases hSent.eq_of_length rfl
        exact hSecond
      · exact fun hSecond => ⟨_, _, .refl _, ⟨rfl, hFirst⟩, rfl, hSecond⟩
    · rw [if_neg hFirst]
      refine iff_of_false ?_ fun hBoth => hFirst hBoth.1
      rintro ⟨_, _, hSent, _⟩
      exact absurd hSent.length_le (Nat.not_succ_le_self 1)

end DeleteSchema

open DeleteSchema in
/-- The controller always answers that the schema was deleted, which is true where the name is not
refused and neither statement fails. -/
theorem deleteSchema_truthful_iff {W : Type} (h : Handler tenancy Exception W) (cases : CaseMapping)
    (schemaName : String) (w : W) : Truthful h cases schemaName w ↔
      cases.toLowerCase schemaName ≠ "public" ∧ NothingFails h schemaName w := by
  have hNoError : ∀ status, ¬ ∃ e, PersistenceController.answer h cases schemaName w = .error e ∧
      e.status = status := by
    rintro status ⟨e, hAnswer, _⟩
    cases (answer_eq h cases schemaName w).symm.trans hAnswer
  rw [← bothSucceeded_iff]
  constructor
  · exact fun hTruthful => hTruthful.deleted _ (answer_eq h cases schemaName w)
  · intro hBoth
    obtain ⟨hOther, _⟩ := bothSucceeded_iff.mp hBoth
    exact ⟨fun _ _ => hBoth, iff_of_false (hNoError 400) hOther,
      iff_of_false (hNoError 500) fun hFailed => hFailed.2 hBoth⟩

open DeleteSchema in
/-- The schema `public` is said to be deleted. -/
theorem not_deleteSchema_truthful : ¬ ∀ {W : Type} (h : Handler tenancy Exception W)
    (cases : CaseMapping) (schemaName : String) (w : W), Truthful h cases schemaName w := by
  intro hAll
  have hTruthful := hAll (W := Unit) (fun _ _ => (.error .external, ()))
    ⟨String.toUpper, String.toLower⟩ "public" ()
  obtain ⟨e, hAnswer, _⟩ := hTruthful.refused.mpr (by decide +kernel)
  cases (answer_eq _ _ _ _).symm.trans hAnswer

end Manejaplus
