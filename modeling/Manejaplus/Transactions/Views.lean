import Manejaplus.Sequential.AccountTokens
import Manejaplus.Transactions.TxWorld

/-! # What the managers see

Each manager sees the base with its share of the journal carried out again, so
whatever every statement of the journal keeps is seen by all of them.
-/
namespace Manejaplus
open Effect
set_option autoImplicit false

variable {env : Env} {c : Choice} {db : Database} {w : TxWorld}

section Statements

/-- The id of a row that a save inserts: a fresh one, or the one the object came with. -/
def UserEntity.newId (env : Env) (c : Choice) (e : UserEntity) : Option String :=
  match e.id with
  | .val id => env.uuid id
  | _ => some c.uuid

inductive UserSaved (env : Env) (c : Choice) (db : Database) (e : UserEntity) :
    Except Exception UserEntity → Database → Prop
  | refused : UserSaved env c db e (.error .external) db
  | updated {row row' : UserRow} {users : UserTable} (updatedAt : Time) : row ∈ db.users.rows →
      e.id = .val row.id → row.write e = some row' →
      users.rows = UserTable.replace { row' with updatedAt } db.users.rows →
      UserSaved env c db e (.ok (UserTable.answer c.now row row' e)) { db with users }
  | inserted {id : String} {row : UserRow} {users : UserTable} :
      UserEntity.newId env c e = some id → UserRow.ofEntity id c.now e = some row →
      users.rows = db.users.rows ++ [row] →
      UserSaved env c db e (.ok (row.returning e)) { db with users }

theorem insert_eq_some {t t' : UserTable} {id : String} {now : Time} {e e' : UserEntity}
    (h : t.insert id now e = some (e', t')) :
    ∃ row, UserRow.ofEntity id now e = some row ∧ t'.rows = t.rows ++ [row] ∧ e' = row.returning e := by
  simp only [UserTable.insert, Option.bind_eq_bind, Option.bind_eq_some_iff] at h
  obtain ⟨row, hRow, users, hRows, hPair⟩ := h
  cases hPair
  exact ⟨row, hRow, UserTable.ofRows?_rows hRows, rfl⟩

theorem ne_of_inserted {t t' : UserTable} {new row : UserRow} (hRows : t'.rows = t.rows ++ [new])
    (hRow : row ∈ t.rows) : new.id ≠ row.id ∧ new.email ≠ row.email := by
  have hIds := t'.nodupId
  have hEmails := t'.nodupEmail
  rw [hRows, List.map_append, List.nodup_append] at hIds hEmails
  exact ⟨fun h => hIds.2.2 _ (List.mem_map_of_mem hRow) _ (by simp) h.symm,
    fun h => hEmails.2.2 _ (List.mem_map_of_mem hRow) _ (by simp) h.symm⟩

theorem exec_saveUser (env : Env) (c : Choice) (db : Database) (e : UserEntity) :
    UserSaved env c db e (db.exec env c (.saveUser e)).1 (db.exec env c (.saveUser e)).2 := by
  simp only [Database.exec]
  cases c.fault with
  | true => exact .refused
  | false =>
    simp only [Bool.false_eq_true, if_false]
    cases hSave : db.users.save env.uuid c.uuid c.now e with
    | none => exact .refused
    | some result =>
      obtain ⟨e', users⟩ := result
      have hInsert : ∀ {id}, UserEntity.newId env c e = some id →
          db.users.insert id c.now e = some (e', users) →
          UserSaved env c db e (.ok e') { db with users } := by
        intro id hId hNew
        obtain ⟨row, hRow, hRows, rfl⟩ := insert_eq_some hNew
        exact .inserted hId hRow hRows
      unfold UserTable.save at hSave
      split at hSave
      · rename_i id hId
        split at hSave
        · rename_i row hFound
          simp only [Option.bind_eq_bind, Option.bind_eq_some_iff] at hSave
          obtain ⟨row', hWrite, users', hRows, hPair⟩ := hSave
          cases hPair
          obtain ⟨hRow, rfl⟩ := UserTable.byId_eq_some.mp hFound
          obtain ⟨updatedAt, hTouch⟩ := UserTable.touch_eq c.now row row'
          rw [hTouch] at hRows
          exact .updated updatedAt hRow hId hWrite (UserTable.ofRows?_rows hRows)
        · simp only [Option.bind_eq_bind, Option.bind_eq_some_iff] at hSave
          obtain ⟨id', hUuid, hNew⟩ := hSave
          exact hInsert (by rw [UserEntity.newId, hId]; exact hUuid) hNew
      · rename_i hId
        refine hInsert ?_ hSave
        unfold UserEntity.newId
        split
        · exact absurd ‹_› (hId _)
        · rfl

inductive OtpSaved (c : Choice) (db : Database) (e : OtpObject) :
    Except Exception OtpObject → Database → Prop
  | refused : OtpSaved c db e (.error .external) db
  | updated {row row' : OtpRow} {otps : OtpTable} : row ∈ db.otps.rows → e.id = .val row.id →
      OtpTable.write db.users c.now e row = some row' →
      otps.rows = OtpTable.replace row' db.otps.rows →
      OtpSaved c db e (.ok { e with updatedAt := .val row'.updatedAt }) { db with otps }
  | inserted {id : Nat} {row : OtpRow} {otps : OtpTable} :
      OtpTable.ofEntity db.users id c.now e = some row → otps.rows = db.otps.rows ++ [row] →
      OtpSaved c db e (.ok { row.entity with user := e.user }) { db with otps }

theorem exec_saveOtp (env : Env) (c : Choice) (db : Database) (e : OtpObject) :
    OtpSaved c db e (db.exec env c (.saveOtp e)).1 (db.exec env c (.saveOtp e)).2 := by
  simp only [Database.exec]
  cases c.fault with
  | true => exact .refused
  | false =>
    simp only [Bool.false_eq_true, if_false]
    cases hSave : db.otps.save db.users c.now e with
    | none => exact .refused
    | some result =>
      unfold OtpTable.save at hSave
      split at hSave
      · rename_i id hId
        split at hSave <;> simp only [Option.bind_eq_bind, Option.bind_eq_some_iff] at hSave
        · rename_i row hFound
          obtain ⟨row', hWrite, otps, hRows, hPair⟩ := hSave
          cases hPair
          have hKey : row.id = id := by simpa using List.find?_some hFound
          exact .updated (List.mem_of_find?_eq_some hFound) (by rw [hId, hKey]) hWrite
            (OtpTable.ofRows?_rows hRows)
        · obtain ⟨row, hRow, otps, hRows, hPair⟩ := hSave
          cases hPair
          exact .inserted hRow (OtpTable.ofRows?_rows hRows)
      · simp only [Option.bind_eq_bind, Option.bind_eq_some_iff] at hSave
        obtain ⟨row, hRow, otps, hRows, hPair⟩ := hSave
        cases hPair
        exact .inserted hRow (OtpTable.ofRows?_rows hRows)

end Statements

namespace TxWorld

/-- The statements that have been carried out, in their order. -/
def carriedOut (w : TxWorld) : List Write := w.journal.entries.map Entry.item

theorem view_induction {P : Database → Prop} (hBase : P w.base)
    (hStep : ∀ item ∈ w.carriedOut, ∀ db, P db → P (db.exec env item.choice item.op).2)
    (manager : Option Tx) : P (w.view env manager) := by
  have hFold : ∀ (entries : List (Entry Write)) (db : Database),
      (∀ e ∈ entries, e ∈ w.journal.entries) → P db →
      P (entries.foldl (fun db e => (db.exec env e.item.choice e.item.op).2) db) := by
    intro entries
    induction entries with
    | nil => exact fun _ _ h => h
    | cons e entries ih =>
      intro db hMem hdb
      obtain ⟨he, hRest⟩ := List.forall_mem_cons.mp hMem
      exact ih _ hRest (hStep _ (List.mem_map_of_mem he) _ hdb)
  exact hFold _ _ (fun _ he => (List.mem_filter.mp he).1) hBase

/-- A statement is refused, or answered by what its manager sees. -/
theorem store_answer (env : Env) (o : StoreOp) (w : TxWorld) :
    (transactional env (.store o) w).1 = .error .external ∨
      ∃ manager, (transactional env (.store o) w).1 = ((w.view env manager).exec env w.choice o).1 := by
  simp only [transactional, execStore]
  split
  · exact .inr ⟨_, rfl⟩
  · exact .inl rfl

theorem base_kept (o : Op) : (transactional env o w).2.base = w.base := by
  cases o with
  | store o =>
    simp only [transactional, execStore]
    split <;> rfl
  | outside o => rfl
  | transaction o =>
    cases o with
    | begin =>
      simp only [transactional, execTransaction]
      split <;> rfl
    | _ => rfl

theorem carriedOut_saveOtp {e e' : OtpObject}
    (h : (transactional env (.store (.saveOtp e)) w).1 = .ok e') :
    StoreOp.saveOtp e ∈ (transactional env (.store (.saveOtp e)) w).2.carriedOut.map Write.op := by
  rw [carriedOut, store_journal, h]
  exact List.mem_map.mpr ⟨⟨.saveOtp e, w.choice⟩,
    List.mem_map.mpr ⟨⟨w.getManager (.saveOtp e), _⟩, List.mem_append_right _ List.mem_cons_self, rfl⟩, rfl⟩

theorem mem_carriedOut {o : Op} {item : Write}
    (h : item ∈ (transactional env o w).2.carriedOut) :
    item ∈ w.carriedOut ∨ ∃ o', o = .store o' ∧ item = ⟨o', w.choice⟩ := by
  cases o with
  | store o =>
    rw [carriedOut, store_journal] at h
    split at h
    · simp only [Journal.write, List.map_append, List.mem_append, List.map_cons, List.map_nil,
        List.mem_singleton] at h
      obtain hOld | hNew := h
      · exact .inl hOld
      · exact .inr ⟨o, rfl, hNew⟩
    · exact .inl h
  | outside o => exact .inl h
  | transaction o =>
    cases o with
    | begin =>
      simp only [transactional, execTransaction] at h
      split at h <;> exact .inl h
    | _ => exact .inl h

theorem tape_after (env : Env) (w : TxWorld) (o : Op) :
    ∃ k, ∀ n, (transactional env o w).2.outside.tape n = w.outside.tape (k + n) := by
  have hTick : ∀ n, w.outside.tick.tape n = w.outside.tape (1 + n) := fun n => by
    rw [Nat.add_comm]
    rfl
  have hSame : ∃ k, ∀ n, w.outside.tape n = w.outside.tape (k + n) := ⟨0, fun n => by rw [Nat.zero_add]⟩
  cases o with
  | store o =>
    simp only [transactional, execStore]
    split <;> exact ⟨1, hTick⟩
  | outside o =>
    refine ⟨1, fun n => ?_⟩
    simp only [transactional, execOutside, World.exec_tape]
    exact hTick n
  | transaction o =>
    cases o with
    | begin =>
      simp only [transactional, execTransaction]
      split <;> exact ⟨1, hTick⟩
    | _ => exact hSame

theorem traces_kept (env : Env) (w : TxWorld) {o : Op} (ho : ∀ o', o ≠ .outside o') :
    (transactional env o w).2.outside.mails = w.outside.mails ∧
      (transactional env o w).2.outside.issued = w.outside.issued := by
  cases o with
  | store o =>
    simp only [transactional, execStore]
    split <;> exact ⟨rfl, rfl⟩
  | outside o => exact absurd rfl (ho o)
  | transaction o =>
    cases o with
    | begin =>
      simp only [transactional, execTransaction]
      split <;> exact ⟨rfl, rfl⟩
    | _ => exact ⟨rfl, rfl⟩

theorem mails_after (env : Env) (w : TxWorld) (o : Op) : (transactional env o w).2.outside.mails = w.outside.mails ∨
    ∃ mail, o = .outside (.sendEmail mail) ∧
      (transactional env o w).2.outside.mails = w.outside.mails ++ [mail] := by
  cases o with
  | store o => exact .inl (traces_kept env w fun _ h => by cases h).1
  | transaction o => exact .inl (traces_kept env w fun _ h => by cases h).1
  | outside o =>
    cases o with
    | sendEmail mail =>
      simp only [transactional, execOutside, Outside.exec]
      split
      · exact .inl rfl
      · exact .inr ⟨mail, rfl, rfl⟩
    | signAsync sub expiresIn =>
      simp only [transactional, execOutside, Outside.exec]
      split <;> exact .inl rfl
    | _ => exact .inl (silent_exec (by trivial) _ _).1

theorem issued_after (env : Env) (w : TxWorld) (o : Op) : (transactional env o w).2.outside.issued = w.outside.issued ∨
    ∃ sub expiresIn payload, o = .outside (.signAsync sub expiresIn) ∧
      payload = Outside.payload w.choice sub expiresIn ∧
      (transactional env o w).2.outside.issued = w.outside.issued ++ [⟨env.sign payload, payload⟩] := by
  cases o with
  | store o => exact .inl (traces_kept env w fun _ h => by cases h).2
  | transaction o => exact .inl (traces_kept env w fun _ h => by cases h).2
  | outside o =>
    cases o with
    | signAsync sub expiresIn =>
      simp only [transactional, execOutside, Outside.exec]
      split
      · exact .inl rfl
      · exact .inr ⟨sub, expiresIn, _, rfl, rfl, rfl⟩
    | sendEmail mail =>
      simp only [transactional, execOutside, Outside.exec]
      split <;> exact .inl rfl
    | _ => exact .inl (silent_exec (by trivial) _ _).2

theorem issued_grows (o : Op) :
    w.outside.issued ⊆ (transactional env o w).2.outside.issued := by
  obtain hSame | ⟨_, _, _, _, _, hNew⟩ := issued_after env w o
  · rw [hSame]
    exact List.Subset.refl _
  · rw [hNew]
    exact List.subset_append_left _ _

theorem signAsync_answer {sub : UserObject} {expiresIn : Nat} {token : String}
    (h : (transactional env (.outside (.signAsync sub expiresIn)) w).1 = .ok token) :
    token = env.sign (Outside.payload w.choice sub expiresIn) ∧
      (transactional env (.outside (.signAsync sub expiresIn)) w).2.outside.issued =
        w.outside.issued ++ [⟨token, Outside.payload w.choice sub expiresIn⟩] := by
  simp only [transactional, execOutside, Outside.exec] at h ⊢
  split at h
  · cases h
  · rename_i hFault
    cases h
    rw [if_neg hFault]
    exact ⟨rfl, rfl⟩

end TxWorld

end Manejaplus
