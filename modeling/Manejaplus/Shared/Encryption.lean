import Manejaplus.Shared.JsonText

/-! # `EncryptionUtil` on JSON values

An object is its list of entries. Every encryption draws a salt; the number of
the next one is passed along.
-/
namespace Manejaplus
set_option autoImplicit false

/-- `CryptoJS.AES` under the key of the service; bytes that are no text make `toString` throw. -/
structure Aes where
  encrypt (salt : Nat) (text : String) : String
  decrypt : String → Option String

def Aes.Undoes (aes : Aes) : Prop := ∀ salt text, aes.decrypt (aes.encrypt salt text) = some text

namespace EncryptionUtil
variable {ν : Type} (aes : Aes) (codec : JsonCodec ν)

def encryptValue (value : Json ν) (salt : Nat) : String × Nat :=
  (aes.encrypt salt (codec.stringify value), salt + 1)

def decryptValue : Json ν → Json ν
  | .str encryptedValue =>
    match (aes.decrypt encryptedValue).bind codec.parse with
    | some value => value
    | none => .str encryptedValue
  | encryptedValue => encryptedValue

mutual
def encryptObject : List (String × Json ν) → Nat → List (String × Json ν) × Nat
  | [], salt => ([], salt)
  | (key, value) :: entries, salt =>
    let (encrypted, salt) := encryptMember value salt
    let (result, salt) := encryptObject entries salt
    ((key, encrypted) :: result, salt)

/-- What the loop of `encryptObject` makes of one value. -/
def encryptMember : Json ν → Nat → Json ν × Nat
  | .arr items, salt =>
    let (result, salt) := encryptItems 0 items salt
    (.obj result, salt)
  | .obj entries, salt =>
    let (result, salt) := encryptObject entries salt
    (.obj result, salt)
  | value, salt =>
    let (encrypted, salt) := encryptValue aes codec value salt
    (.str encrypted, salt)

/-- `encryptObject` of an array: the keys of its entries are the indices. -/
def encryptItems : Nat → List (Json ν) → Nat → List (String × Json ν) × Nat
  | _, [], salt => ([], salt)
  | index, value :: items, salt =>
    let (encrypted, salt) := encryptMember value salt
    let (result, salt) := encryptItems (index + 1) items salt
    ((index.repr, encrypted) :: result, salt)
end

mutual
def decryptObject : List (String × Json ν) → List (String × Json ν)
  | [] => []
  | (key, value) :: entries => (key, decryptMember value) :: decryptObject entries

def decryptMember : Json ν → Json ν
  | .arr items => .obj (decryptItems 0 items)
  | .obj entries => .obj (decryptObject entries)
  | value => decryptValue aes codec value

def decryptItems : Nat → List (Json ν) → List (String × Json ν)
  | _, [] => []
  | index, value :: items => (index.repr, decryptMember value) :: decryptItems (index + 1) items
end

def encryptObjectAsString (obj : List (String × Json ν)) (salt : Nat) : String × Nat :=
  encryptValue aes codec (.obj obj) salt

def decryptObjectFromString (encryptedString : String) : Json ν :=
  decryptValue aes codec (.str encryptedString)

/-- An item that is an object or an array goes through `encryptObjectAsString`, which is
`encryptValue` as well. -/
def encryptArray : List (Json ν) → Nat → List String × Nat
  | [], salt => ([], salt)
  | item :: arr, salt =>
    let (encrypted, salt) := encryptValue aes codec item salt
    let (result, salt) := encryptArray arr salt
    (encrypted :: result, salt)

def decryptArray (encryptedArr : List String) : List (Json ν) :=
  encryptedArr.map fun item => decryptValue aes codec (.str item)

def encryptArrayAsString (arr : List (Json ν)) (salt : Nat) : String × Nat :=
  encryptValue aes codec (.arr arr) salt

def decryptArrayFromString (encryptedString : String) : List (Json ν) :=
  match decryptValue aes codec (.str encryptedString) with
  | .arr items => items
  | _ => []

mutual
/-- The value with an object, keyed by the indices, for every array in it. -/
def asObjects : Json ν → Json ν
  | .arr items => .obj (itemsAsObjects 0 items)
  | .obj entries => .obj (entriesAsObjects entries)
  | value => value

def entriesAsObjects : List (String × Json ν) → List (String × Json ν)
  | [] => []
  | (key, value) :: entries => (key, asObjects value) :: entriesAsObjects entries

def itemsAsObjects : Nat → List (Json ν) → List (String × Json ν)
  | _, [] => []
  | index, value :: items => (index.repr, asObjects value) :: itemsAsObjects (index + 1) items
end

variable {aes codec}

theorem decryptValue_encryptValue (hAes : aes.Undoes) (hCodec : codec.Undoes) {value : Json ν}
    (hValue : value.WellFormed) (salt : Nat) :
    decryptValue aes codec (.str (encryptValue aes codec value salt).1) = value := by
  rw [encryptValue, decryptValue, hAes, Option.bind_some, hCodec value hValue]

mutual
theorem decryptObject_encryptObject (hAes : aes.Undoes) (hCodec : codec.Undoes) :
    ∀ (entries : List (String × Json ν)) (salt : Nat),
      decryptObject aes codec (encryptObject aes codec entries salt).1 = entriesAsObjects entries
  | [], _ => rfl
  | (key, value) :: entries, salt => by
    rw [encryptObject, decryptObject, entriesAsObjects,
      decryptMember_encryptMember hAes hCodec value salt,
      decryptObject_encryptObject hAes hCodec entries _]

/-- What a value has become after its way there and back. -/
theorem decryptMember_encryptMember (hAes : aes.Undoes) (hCodec : codec.Undoes) :
    ∀ (value : Json ν) (salt : Nat),
      decryptMember aes codec (encryptMember aes codec value salt).1 = asObjects value
  | .arr items, salt => by
    rw [encryptMember, decryptMember, asObjects, decryptObject_encryptItems hAes hCodec 0 items salt]
  | .obj entries, salt => by
    rw [encryptMember, decryptMember, asObjects, decryptObject_encryptObject hAes hCodec entries salt]
  | .null, salt => decryptValue_encryptValue hAes hCodec (.leaf rfl) salt
  | .bool _, salt => decryptValue_encryptValue hAes hCodec (.leaf rfl) salt
  | .num _, salt => decryptValue_encryptValue hAes hCodec (.leaf rfl) salt
  | .str _, salt => decryptValue_encryptValue hAes hCodec (.leaf rfl) salt

theorem decryptObject_encryptItems (hAes : aes.Undoes) (hCodec : codec.Undoes) :
    ∀ (index : Nat) (items : List (Json ν)) (salt : Nat),
      decryptObject aes codec (encryptItems aes codec index items salt).1 =
        itemsAsObjects index items
  | _, [], _ => rfl
  | index, value :: items, salt => by
    rw [encryptItems, decryptObject, itemsAsObjects,
      decryptMember_encryptMember hAes hCodec value salt,
      decryptObject_encryptItems hAes hCodec (index + 1) items _]
end

theorem entriesAsObjects_eq_self {entries : List (String × Json ν)}
    (ih : ∀ f ∈ entries, asObjects f.2 = f.2 ↔ f.2.Arrayless) :
    entriesAsObjects entries = entries ↔ ∀ f ∈ entries, f.2.Arrayless := by
  induction entries with
  | nil => simp [entriesAsObjects]
  | cons f entries ihEntries =>
    obtain ⟨key, value⟩ := f
    rw [entriesAsObjects, List.cons.injEq, Prod.mk.injEq, ih (key, value) List.mem_cons_self,
      ihEntries fun g hg => ih g (List.mem_cons_of_mem _ hg), List.forall_mem_cons]
    exact and_congr_left fun _ => and_iff_right rfl

theorem asObjects_eq_self (value : Json ν) : asObjects value = value ↔ value.Arrayless := by
  induction value using Json.induct with
  | arr items => simp [asObjects, Json.not_arrayless_arr]
  | obj entries ih =>
    rw [asObjects, Json.obj.injEq, Json.arrayless_obj]
    exact entriesAsObjects_eq_self ih
  | _ => exact iff_of_true rfl (.leaf rfl)

theorem decryptObject_encryptObject_eq_self (hAes : aes.Undoes) (hCodec : codec.Undoes)
    (o : List (String × Json ν)) (salt : Nat) :
    decryptObject aes codec (encryptObject aes codec o salt).1 = o ↔ ∀ f ∈ o, f.2.Arrayless := by
  rw [decryptObject_encryptObject hAes hCodec]
  exact entriesAsObjects_eq_self fun f _ => asObjects_eq_self f.2

theorem decryptArray_encryptArray (hAes : aes.Undoes) (hCodec : codec.Undoes) {a : List (Json ν)}
    (ha : ∀ item ∈ a, item.WellFormed) (salt : Nat) :
    decryptArray aes codec (encryptArray aes codec a salt).1 = a := by
  induction a generalizing salt with
  | nil => rfl
  | cons item a ih =>
    rw [encryptArray, decryptArray, List.map_cons,
      decryptValue_encryptValue hAes hCodec (ha item List.mem_cons_self)]
    exact congrArg (item :: ·) (ih (fun v hv => ha v (List.mem_cons_of_mem _ hv)) _)

theorem decryptArrayFromString_encryptArrayAsString (hAes : aes.Undoes) (hCodec : codec.Undoes)
    {a : List (Json ν)} (ha : ∀ item ∈ a, item.WellFormed) (salt : Nat) :
    decryptArrayFromString aes codec (encryptArrayAsString aes codec a salt).1 = a := by
  rw [encryptArrayAsString, decryptArrayFromString,
    decryptValue_encryptValue hAes hCodec (.arr ha)]

theorem decryptObjectFromString_encryptObjectAsString (hAes : aes.Undoes) (hCodec : codec.Undoes)
    {o : List (String × Json ν)} (ho : (Json.obj o).WellFormed) (salt : Nat) :
    decryptObjectFromString aes codec (encryptObjectAsString aes codec o salt).1 = .obj o :=
  decryptValue_encryptValue hAes hCodec ho salt

variable (aes codec) in
/-- What is encrypted comes back, whichever salts are drawn. -/
structure RoundTrips (o : List (String × Json ν)) (a : List (Json ν)) : Prop where
  object : ∀ salt, decryptObject aes codec (encryptObject aes codec o salt).1 = o
  array : ∀ salt, decryptArray aes codec (encryptArray aes codec a salt).1 = a
  arrayString : ∀ salt,
    decryptArrayFromString aes codec (encryptArrayAsString aes codec a salt).1 = a
  agree : ∀ salt salt', Json.obj (decryptObject aes codec (encryptObject aes codec o salt).1) =
    decryptObjectFromString aes codec (encryptObjectAsString aes codec o salt').1

end EncryptionUtil

open EncryptionUtil in
/-- An object survives its way through the leaves unless there is an array in it. -/
theorem roundTrips_iff {ν : Type} {aes : Aes} {codec : JsonCodec ν} (hAes : aes.Undoes)
    (hCodec : codec.Undoes) {o : List (String × Json ν)} {a : List (Json ν)}
    (ho : (Json.obj o).WellFormed) (ha : (Json.arr a).WellFormed) :
    RoundTrips aes codec o a ↔ ∀ f ∈ o, f.2.Arrayless := by
  constructor
  · intro h
    exact (decryptObject_encryptObject_eq_self hAes hCodec o 0).mp (h.object 0)
  · intro hArrayless
    have hObject := fun salt =>
      (decryptObject_encryptObject_eq_self hAes hCodec o salt).mpr hArrayless
    refine ⟨hObject, decryptArray_encryptArray hAes hCodec ha.item,
      decryptArrayFromString_encryptArrayAsString hAes hCodec ha.item, fun salt salt' => ?_⟩
    rw [hObject, decryptObjectFromString_encryptObjectAsString hAes hCodec ho]

namespace Sample

/-- The salt stands before the text. -/
def aes : Aes where
  encrypt salt text := String.ofList (List.replicate salt ' ' ++ '$' :: text.toList)
  decrypt text := some (String.ofList (text.toList.dropWhile (· = ' ')).tail)

theorem aes_undoes : aes.Undoes := by
  intro salt text
  have hDrop : (List.replicate salt ' ' ++ '$' :: text.toList).dropWhile (· = ' ') =
      '$' :: text.toList := by
    induction salt with
    | zero => rfl
    | succ salt ih => exact ih
  simp [aes, hDrop]

/-- `{ name: 'ada', roles: ['admin'] }` -/
def person : List (String × Json Nat) := [("name", .str "ada"), ("roles", .arr [.str "admin"])]

end Sample

open EncryptionUtil in
theorem roundTrips_iff_sample :
    RoundTrips Sample.aes (JsonText.codec JsonText.naturals) [("pin", .num 7)] [.num 1] ↔
      ∀ f ∈ [("pin", Json.num 7)], f.2.Arrayless :=
  roundTrips_iff Sample.aes_undoes (JsonText.codec_undoes JsonText.naturals)
    (.obj (by decide) (by decide) fun f hf => .leaf (by rw [List.mem_singleton.mp hf]; rfl))
    (.arr fun v hv => .leaf (by rw [List.mem_singleton.mp hv]; rfl))

theorem Sample.person_wellFormed : (Json.obj Sample.person).WellFormed := by
  refine .obj (by decide) (by decide) ?_
  have hRoles : (Json.arr [.str "admin"] : Json Nat).WellFormed :=
    .arr fun v hv => .leaf (by rw [List.mem_singleton.mp hv]; rfl)
  simp only [Sample.person, List.forall_mem_cons]
  exact ⟨.leaf rfl, hRoles, fun _ hf => absurd hf List.not_mem_nil⟩

open EncryptionUtil in
/-- The list of roles comes back as an object. -/
theorem not_roundTrips : Sample.aes.Undoes ∧ (JsonText.codec JsonText.naturals).Undoes ∧
    (Json.obj Sample.person).WellFormed ∧ (Json.arr [] : Json Nat).WellFormed ∧
    ¬ RoundTrips Sample.aes (JsonText.codec JsonText.naturals) Sample.person [] := by
  refine ⟨Sample.aes_undoes, JsonText.codec_undoes JsonText.naturals, Sample.person_wellFormed,
    .arr fun _ hv => absurd hv List.not_mem_nil, fun h => ?_⟩
  have hObject := h.object 0
  rw [decryptObject_encryptObject Sample.aes_undoes (JsonText.codec_undoes JsonText.naturals)] at hObject
  simp [Sample.person, entriesAsObjects, asObjects] at hObject

end Manejaplus
