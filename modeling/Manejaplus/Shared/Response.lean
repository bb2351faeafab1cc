import Mathlib.Data.List.Basic
import Manejaplus.Shared.Json

/-! # The reply to a request

What a handler returns goes through `TransformationResponseInterceptor`, what
it throws through `GlobalExceptionFilter`. `undefined` is the `none` of a value.
-/
namespace Manejaplus
set_option autoImplicit false

namespace Json
variable {ν : Type}

/-- `value?.key`, for a key that no built-in prototype has. -/
def property (key : String) : Option (Json ν) → Option (Json ν)
  | some (.obj fields) => fields.lookup key
  | _ => none

/-- An object literal as it is sent: `undefined` leaves no property behind. -/
def literal (fields : List (String × Option (Json ν))) : Json ν :=
  .obj (fields.filterMap fun f => f.2.map (f.1, ·))

/-- The falsy values, where `zero` holds of the falsy numbers. -/
def falsy (zero : ν → Bool) : Option (Json ν) → Bool
  | none => true
  | some .null => true
  | some (.bool b) => !b
  | some (.num n) => zero n
  | some (.str s) => s == ""
  | some _ => false

theorem property_literal {fields : List (String × Option (Json ν))}
    (hKeys : (fields.map (·.1)).Nodup) (key : String) :
    property key (some (literal fields)) = (fields.lookup key).join := by
  rw [literal, property]
  exact lookup_present hKeys key

theorem property_ne_self (key : String) (v : Json ν) : property key (some v) ≠ some v := by
  intro h
  cases v with
  | obj fields =>
    have hLt := List.sizeOf_lt_of_mem (mem_of_lookup h)
    simp only [Prod.mk.sizeOf_spec, Json.obj.sizeOf_spec] at hLt
    omega
  | _ => cases h

end Json

namespace TransformationResponseInterceptor
variable {ν : Type}

/-- A response whose content type has been set to an application's is left as it is. -/
def leaves (contentType : Option String) : Bool :=
  contentType.any fun contentType => "application".toList.isPrefixOf contentType.toList

/-- `intercept`, for a handler that has returned `response`. -/
def intercept (zero : ν → Bool) (statusCode : Nat) (contentType : Option String)
    (response : Option (Json ν)) : Option (Json ν) :=
  if leaves contentType then response
  else
    let success := Json.property "success" response
    let success :=
      if Json.falsy zero success then some (.bool (decide (statusCode ≥ 200 ∧ statusCode ≤ 207)))
      else success
    let data := if Json.falsy zero response then some (.obj []) else response
    some (Json.literal [("success", success), ("data", data)])

end TransformationResponseInterceptor

/-- What a handler can throw. An `HttpException` has a text or an object as its response. -/
inductive Thrown (ν : Type) where
  | httpText (text : String) (status : Nat)
  | httpObject (fields : List (String × Json ν)) (status : Nat)
  | error (name message : String)
  | value (v : Option (Json ν))

/-- `Error.prototype.toString` -/
def errorText (name message : String) : String :=
  if name = "" then message else if message = "" then name else name ++ ": " ++ message

namespace GlobalExceptionFilter
variable {ν : Type} [NatCast ν]

def httpStatus : Thrown ν → Nat
  | .httpText _ status => status
  | .httpObject _ status => status
  | _ => 500

/-- What the filter looks for a message in; `string` is `String(value)`, which may throw. -/
def exceptionResponse (string : Json ν → Option String) : Thrown ν → Option (Json ν)
  | .httpText text _ => some (.str text)
  | .httpObject fields _ => some (.obj fields)
  | .error name message => some (.str (errorText name message))
  | .value (some (.arr items)) => some (.arr items)
  | .value none => some (.obj [("message", .str "Error desconocido")])
  | .value (some .null) => some (.obj [("message", .str "Error desconocido")])
  | .value (some v) => (string v).map .str

/-- The body that `catch` replies with; none when the filter itself throws. -/
def catchBody (string : Json ν → Option String) (exception : Thrown ν) : Option (Json ν) :=
  (exceptionResponse string exception).map fun response =>
    Json.literal [("success", some (.bool false)),
      ("statusCode", some (.num (httpStatus exception : ν))),
      ("error", Json.property "message" (some response))]

end GlobalExceptionFilter

inductive HandlerOutcome (ν : Type) where
  | returned (response : Option (Json ν))
  | threw (exception : Thrown ν)

/-- What the reply depends on besides the outcome: the status and the content type that the router
has set. -/
structure ReplySettings (ν : Type) where
  statusCode : Nat
  contentType : Option String
  zero : ν → Bool
  string : Json ν → Option String

def replyBody {ν : Type} [NatCast ν] (settings : ReplySettings ν) :
    HandlerOutcome ν → Option (Json ν)
  | .returned response => TransformationResponseInterceptor.intercept settings.zero
      settings.statusCode settings.contentType response
  | .threw exception => GlobalExceptionFilter.catchBody settings.string exception

namespace Response
variable {ν : Type} {settings : ReplySettings ν} {zero : ν → Bool} {statusCode : Nat}
  {contentType : Option String} {response : Option (Json ν)}

/-- The message that an exception carries: the text of an `HttpException`, or the field of its
object, or the message of an `Error`. -/
def message : Thrown ν → Option (Json ν)
  | .httpText text _ => some (.str text)
  | .httpObject fields _ => fields.lookup "message"
  | .error _ message => some (.str message)
  | .value _ => none

def Contains (error message : Json ν) : Prop :=
  error = message ∨ ∃ s t : String, error = .str s ∧ message = .str t ∧ t.toList <:+: s.toList

/-- The reply says what has come of the request. -/
structure Faithful (statusCode : Nat) (outcome : HandlerOutcome ν) (body : Option (Json ν)) :
    Prop where
  success : Json.property "success" body = some (.bool true) → ∃ response,
    outcome = .returned response ∧ (200 ≤ statusCode ∧ statusCode < 300) ∧
      Json.property "success" response ≠ some (.bool false)
  data : ∀ v, outcome = .returned (some v) → v ≠ .null → Json.property "data" body = some v
  error : ∀ e m, outcome = .threw e → message e = some m → m ≠ .str "" →
    ∃ text, Json.property "error" body = some text ∧ Contains text m

/-- What the returned value has to be like: its own `success` fits the status, and it is no falsy
value but `null` or `undefined`. One that is left as it is must be one of these two. -/
structure Plain (settings : ReplySettings ν) (response : Option (Json ν)) : Prop where
  success : Json.property "success" response = some (.bool true) →
    200 ≤ settings.statusCode ∧ settings.statusCode < 300
  failure : Json.property "success" response = some (.bool false) →
    ¬ (200 ≤ settings.statusCode ∧ settings.statusCode ≤ 207)
  truthy : Json.falsy settings.zero response = true → response = none ∨ response = some .null
  wrapped : TransformationResponseInterceptor.leaves settings.contentType = true →
    response = none ∨ response = some .null

/-- The condition for a faithful reply: a plain value, or an exception whose message, if it has any,
is the field of an `HttpException`'s object. -/
def Reported (settings : ReplySettings ν) : HandlerOutcome ν → Prop
  | .returned response => Plain settings response
  | .threw (.httpText text _) => text = ""
  | .threw (.error _ message) => message = ""
  | .threw _ => True

variable (zero statusCode response) in
theorem property_intercept (h : TransformationResponseInterceptor.leaves contentType = false) :
    Json.property "success"
        (TransformationResponseInterceptor.intercept zero statusCode contentType response) =
      (if Json.falsy zero (Json.property "success" response) then
        some (.bool (decide (statusCode ≥ 200 ∧ statusCode ≤ 207)))
      else Json.property "success" response) ∧
    Json.property "data"
        (TransformationResponseInterceptor.intercept zero statusCode contentType response) =
      if Json.falsy zero response then some (.obj []) else response := by
  rw [TransformationResponseInterceptor.intercept, h, if_neg Bool.false_ne_true]
  exact ⟨Json.property_literal (by simp) "success", Json.property_literal (by simp) "data"⟩

theorem faithful_of_nil {outcome : HandlerOutcome ν} (hNil : response = none ∨ response = some .null)
    (hOutcome : outcome = .returned response) : Faithful statusCode outcome response := by
  subst hOutcome
  refine ⟨fun h => ?_, fun v hv hNull => ?_, nofun⟩
  · obtain rfl | rfl := hNil <;> cases h
  · cases hv
    obtain h | h := hNil <;> cases h
    exact absurd rfl hNull

theorem plain_of_nil (hNil : response = none ∨ response = some .null) : Plain settings response where
  success h := by obtain rfl | rfl := hNil <;> cases h
  failure h := by obtain rfl | rfl := hNil <;> cases h
  truthy _ := hNil
  wrapped _ := hNil

theorem nil_of_falsy {v : Json ν} (hNil : some v = none ∨ some v = some Json.null) : v = .null :=
  hNil.elim nofun fun h => Option.some.inj h

section Replies
variable [NatCast ν]

theorem property_catchBody (string : Json ν → Option String) (e : Thrown ν) :
    Json.property "success" (GlobalExceptionFilter.catchBody string e) ≠ some (.bool true) ∧
      Json.property "error" (GlobalExceptionFilter.catchBody string e) =
        Json.property "message" (GlobalExceptionFilter.exceptionResponse string e) := by
  rw [GlobalExceptionFilter.catchBody]
  cases GlobalExceptionFilter.exceptionResponse string e with
  | none => exact ⟨nofun, rfl⟩
  | some response =>
    rw [Option.map_some, Json.property_literal (by simp), Json.property_literal (by simp)]
    exact ⟨by simp, rfl⟩

theorem returned_iff : Faithful settings.statusCode (.returned response)
    (replyBody settings (.returned response)) ↔ Plain settings response := by
  cases hLeaves : TransformationResponseInterceptor.leaves settings.contentType with
  | true =>
    rw [replyBody, TransformationResponseInterceptor.intercept, hLeaves, if_pos rfl]
    constructor
    · intro h
      apply plain_of_nil
      cases response with
      | none => exact .inl rfl
      | some v =>
        by_contra hNil
        exact Json.property_ne_self _ v (h.data v rfl fun hNull => hNil (.inr (congrArg some hNull)))
    · exact fun h => faithful_of_nil (h.wrapped hLeaves) rfl
  | false =>
    obtain ⟨hSuccess, hData⟩ :=
      property_intercept settings.zero settings.statusCode response hLeaves
    constructor
    · intro h
      refine ⟨fun hTrue => ?_, fun hFalse hStatus => ?_, fun hFalsy => ?_, fun hWrapped => ?_⟩
      · obtain ⟨_, _, hStatus, _⟩ := h.success (by rw [replyBody, hSuccess, hTrue]; rfl)
        exact hStatus
      · obtain ⟨_, hOutcome, _, hOther⟩ := h.success (by
          rw [replyBody, hSuccess, hFalse]
          exact congrArg (fun b => some (Json.bool b)) (decide_eq_true hStatus))
        cases hOutcome
        exact hOther hFalse
      · cases response with
        | none => exact .inl rfl
        | some v =>
          by_contra hNil
          have hSame := h.data v rfl fun hNull => hNil (.inr (congrArg some hNull))
          rw [replyBody, hData, if_pos hFalsy] at hSame
          cases hSame
          cases hFalsy
      · cases hLeaves.symm.trans hWrapped
    · intro h
      refine ⟨fun hTrue => ⟨response, rfl, ?_⟩, fun v hv hNull => ?_, nofun⟩
      · rw [replyBody, hSuccess] at hTrue
        split at hTrue
        · have hStatus : settings.statusCode ≥ 200 ∧ settings.statusCode ≤ 207 := by
            simpa using hTrue
          exact ⟨⟨hStatus.1, by omega⟩, fun hFalse => h.failure hFalse hStatus⟩
        · exact ⟨h.success hTrue, fun hFalse => by cases hTrue.symm.trans hFalse⟩
      · cases hv
        rw [replyBody, hData]
        split
        · rename_i hFalsy
          exact absurd (nil_of_falsy (h.truthy hFalsy)) hNull
        · rfl

theorem threw_iff (e : Thrown ν) : Faithful settings.statusCode (.threw e)
    (replyBody settings (.threw e)) ↔ Reported settings (.threw e) := by
  obtain ⟨hSuccess, hError⟩ := property_catchBody settings.string e
  have hFaithful : Faithful settings.statusCode (.threw e) (replyBody settings (.threw e)) ↔
      ∀ m, message e = some m → m ≠ .str "" → ∃ text,
        Json.property "message" (GlobalExceptionFilter.exceptionResponse settings.string e) =
          some text ∧ Contains text m := by
    rw [← hError]
    refine ⟨fun h m => h.error e m rfl, fun h => ⟨fun hTrue => absurd hTrue hSuccess, nofun, ?_⟩⟩
    rintro _ m hThrown
    cases hThrown
    exact h m
  rw [hFaithful]
  -- a text has no property `message`
  have hLost : ∀ s : String, (∀ m : Json ν, some (.str s) = some m → m ≠ .str "" →
      ∃ text : Json ν, (none : Option (Json ν)) = some text ∧ Contains text m) ↔ s = "" := by
    intro s
    constructor
    · intro h
      by_contra hText
      obtain ⟨_, hNone, _⟩ := h (.str s) rfl fun hStr => hText (Json.str.inj hStr)
      cases hNone
    · rintro rfl m hm hText
      exact absurd (Option.some.inj hm).symm hText
  cases e with
  | httpText text status => exact hLost text
  | error name message => exact hLost message
  | httpObject fields status =>
    exact iff_of_true (fun m hm _ => ⟨m, hm, .inl rfl⟩) trivial
  | value v => exact iff_of_true (fun m hm => by cases hm) trivial

end Replies

end Response

open Response in
/-- A reply is faithful exactly for the outcomes that are plain or reported. -/
theorem replyBody_faithful_iff {ν : Type} [NatCast ν] (settings : ReplySettings ν)
    (outcome : HandlerOutcome ν) :
    Faithful settings.statusCode outcome (replyBody settings outcome) ↔ Reported settings outcome := by
  cases outcome with
  | returned response => exact returned_iff
  | threw e => exact threw_iff e

namespace Sample

def replySettings : ReplySettings Nat where
  statusCode := 201
  contentType := none
  zero n := n == 0
  string _ := none

/-- What `validateRoles` throws. -/
def roleError : HandlerOutcome Nat := .threw (.error "Error" "At least one role is not allowed")

end Sample

open Response in
/-- The message of a plain `Error` is lost. -/
theorem not_replyBody_faithful : ¬ Faithful Sample.replySettings.statusCode Sample.roleError
    (replyBody Sample.replySettings Sample.roleError) := by
  intro h
  have hEmpty : "At least one role is not allowed" = "" := (threw_iff _).mp h
  exact absurd hEmpty (by decide)

end Manejaplus
