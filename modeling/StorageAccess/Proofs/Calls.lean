import StorageAccess.Model.FrontEnd
import StorageAccess.Proofs.Forms
/-!
# The calls of the clients

A call is refused by the first check its message fails, or makes a request whose
storage type is the one the method has checked, so that it has a provider.
-/

open Posix Json

namespace StorageAccess

namespace SAFLunaService

/-! ## What a schema says of a message -/

theorem mem_of_get_ne {fields : List (String × JValue)} {key : String} {v : JValue} (h : fields.lookup key = some v) :
    (key, v) ∈ fields := by
  induction fields with
  | nil => cases h
  | cons f fields ih =>
    obtain ⟨k, w⟩ := f
    rw [List.lookup_cons] at h
    split at h
    case h_1 hk =>
      cases h
      rw [eq_of_beq hk]
      exact List.mem_cons_self
    case h_2 => exact List.mem_cons_of_mem _ (ih h)

/-- A member of a message that the schema accepts has the type the schema gives it. -/
theorem Schema.accepts_member {s : Schema} {j : JValue} (h : s.accepts j = true) {key : String}
    (hk : j.hasKey key = true) : ∃ t, s.props.lookup key = some t ∧ t.accepts (j.get key) = true := by
  cases j with
  | obj fields =>
    simp only [Schema.accepts, Bool.and_eq_true, List.all_eq_true] at h
    obtain ⟨v, hv⟩ := Option.isSome_iff_exists.1 hk
    have hmem := h.1 _ (mem_of_get_ne hv)
    rw [JValue.get, hv, Option.getD_some]
    dsimp only at hmem
    split at hmem
    case h_1 t ht => exact ⟨t, ht, hmem⟩
    case h_2 => cases hmem
  | null | bool | num | str | arr => cases h

/-- A key the schema does not know is not there. -/
theorem Schema.get_unknown {s : Schema} {j : JValue} (h : s.accepts j = true) {key : String}
    (hk : s.props.lookup key = none) : j.get key = .null := by
  apply JValue.get_of_not_hasKey
  intro hkey
  obtain ⟨t, ht, -⟩ := Schema.accepts_member h hkey
  rw [hk] at ht
  cases ht

/-- A required text is there. -/
theorem Schema.isString_required {s : Schema} {j : JValue} (h : s.accepts j = true) {key : String}
    (hk : s.props.lookup key = some .string) (hr : key ∈ s.required) : (j.get key).isString = true := by
  have hkey : j.hasKey key = true := by
    cases j with
    | obj fields =>
      simp only [Schema.accepts, Bool.and_eq_true, List.all_eq_true] at h
      exact h.2 key hr
    | null | bool | num | str | arr => cases h
  obtain ⟨t, ht, hv⟩ := Schema.accepts_member h hkey
  rw [hk] at ht
  cases ht
  exact hv

/-! ## The storage type of a message -/

theorem storageTypeOf_eq {j : JValue} (h : (j.get "storageType").isString = true) :
    storageTypeOf j = getStorageDeviceType (j.get "storageType").asString := if_pos h

/-- A message of a transfer names no storage type but those of its ends. -/
theorem storageTypeOf_transfer {j : JValue} (h : transferSchema.accepts j = true) :
    storageTypeOf j = getStorageDeviceType (j.get "srcStorageType").asString := by
  have hnull : j.get "storageType" = .null := Schema.get_unknown h (by decide)
  have hsrc : (j.get "srcStorageType").isString = true := Schema.isString_required h (by decide) (by decide)
  rw [storageTypeOf, hnull, if_neg (by decide), if_pos hsrc]

theorem storageTypeOf_withSourceType {j : JValue} (h : j.isObject = true) :
    storageTypeOf (withSourceType j) = getStorageDeviceType (j.get "srcStorageType").asString := by
  unfold withSourceType
  rw [storageTypeOf_eq] <;> rw [JValue.get_put_self j h]
  · rfl
  · rfl

/-- The key under which the callbacks find the storage type of a message. -/
def typeKey : MethodType → String
  | .copyMethod | .moveMethod => "srcStorageType"
  | _ => "storageType"

theorem storageTypeOf_message {type : MethodType} (hm : type ≠ .listStoragesMethod) {j : JValue}
    (h : (schema type).accepts j = true) : storageTypeOf j = getStorageDeviceType (j.get (typeKey type)).asString := by
  cases type with
  | listStoragesMethod => exact absurd rfl hm
  | copyMethod | moveMethod => exact storageTypeOf_transfer h
  | _ => exact storageTypeOf_eq (Schema.isString_required h (by decide) (by decide))

/-! ## Taking a call -/

/-- The values a method does not take. -/
def Invalid (type : MethodType) (requestObj : JValue) : Bool :=
  anyEmpty (nonEmpty type) requestObj ||
    decide (type = .listMethod ∧ ((requestObj.get "offset").asInt < 1 ∨ (requestObj.get "offset").asInt > 100 ∨
      (requestObj.get "limit").asInt = -1))

/-- The keys under which a method finds the storage types it checks. -/
def typeKeys : MethodType → List String
  | .copyMethod | .moveMethod => ["srcStorageType", "destStorageType"]
  | .listStoragesMethod => []
  | _ => ["storageType"]

/-- A storage type of the message is none of the four. -/
def UnknownType (type : MethodType) (requestObj : JValue) : Bool :=
  (typeKeys type).any fun key => (getStorageDeviceType (requestObj.get key).asString).isNone

/-- The parameters a method makes of a message. -/
def paramsOf : MethodType → JValue → JValue
  | .copyMethod | .moveMethod => withSourceType
  | .listStoragesMethod => (·.put "storageType" (.text "usb"))
  | _ => id

theorem call_eq_take (type : MethodType) (message : Option JValue) (sessionId : Str) :
    call type message sessionId = take type (Invalid type) (typeKeys type) (paramsOf type) message sessionId := by
  unfold Invalid
  cases type with
  | listMethod => simp [call, list, take, typeKeys, paramsOf, nonEmpty, Bool.or_assoc]
  | _ =>
    simp [call, handleExtraCommand, getProperties, listStorageProviders, copy, move, remove, eject, rename, transferKeys,
      take, typeKeys, paramsOf, nonEmpty, anyEmpty]

theorem isObject_of_accepts {s : Schema} {j : JValue} (h : s.accepts j = true) : j.isObject = true := by
  cases j with
  | obj fields => rfl
  | null | bool | num | str | arr => cases h

/-- The storage type a request gets is the one its method has checked. -/
theorem storageTypeOf_paramsOf {type : MethodType} {j : JValue} (hs : (schema type).accepts j = true)
    (hu : UnknownType type j = false) : ∃ storageType, storageTypeOf (paramsOf type j) = some storageType := by
  have hobj := isObject_of_accepts hs
  have hknown {key : String} (hk : key ∈ typeKeys type) :
      ∃ storageType, getStorageDeviceType (j.get key).asString = some storageType := by
    unfold UnknownType at hu
    have hkey := List.any_eq_false.1 hu key hk
    exact Option.ne_none_iff_exists'.1 (by simpa using hkey)
  have hmessage (hm : type ≠ .listStoragesMethod) := storageTypeOf_message hm hs
  cases type with
  | listStoragesMethod =>
    refine ⟨.usb, ?_⟩
    rw [paramsOf, storageTypeOf_eq (by rw [JValue.get_put_self j hobj]; rfl), JValue.get_put_self j hobj]
    rfl
  | copyMethod | moveMethod =>
    rw [paramsOf, storageTypeOf_withSourceType hobj]
    exact hknown (by decide)
  | _ =>
    dsimp only [paramsOf, id]
    rw [hmessage (by decide)]
    exact hknown (by decide)

/-- A method with one storage type. -/
theorem unknownType_or_some {type : MethodType} {j : JValue} (hk : typeKeys type = ["storageType"]) :
    UnknownType type j = (getStorageDeviceType (j.get "storageType").asString).isNone := by
  rw [UnknownType, hk, List.any_cons, List.any_nil, Bool.or_false]

/-- The request of a call, by the checks in their order. -/
theorem accept_eq (type : MethodType) (j : JValue) (sessionId : Str) :
    accept type j sessionId =
      if (schema type).accepts j = false ∨ Invalid type j = true ∨ UnknownType type j = true then none
      else (storageTypeOf (paramsOf type j)).map (⟨·, type, paramsOf type j, sessionId⟩) := by
  by_cases hs : (schema type).accepts j = true
  case neg => simp [accept, hs]
  have hobj := isObject_of_accepts hs
  by_cases he : anyEmpty (nonEmpty type) j = true
  case pos =>
    have hinvalid : Invalid type j = true := by rw [Invalid, he, Bool.true_or]
    rw [if_pos (.inr (.inl hinvalid))]
    unfold anyEmpty at he
    simp [accept, hs, he]
  have hempty := Bool.eq_false_iff.2 he
  have hone (hk : typeKeys type = ["storageType"]) (hinvalid : Invalid type j = false) (hp : paramsOf type = id)
      (htype : storageTypeOf j = getStorageDeviceType (j.get "storageType").asString) :
      (getStorageDeviceType (j.get "storageType").asString).map (⟨·, type, j, sessionId⟩) =
        if (schema type).accepts j = false ∨ Invalid type j = true ∨ UnknownType type j = true then none
        else (storageTypeOf (paramsOf type j)).map
          (⟨·, type, paramsOf type j, sessionId⟩ : StorageType → RequestData) := by
    rw [hp, id, htype, unknownType_or_some hk, hs, hinvalid]
    cases getStorageDeviceType (j.get "storageType").asString <;> rfl
  unfold anyEmpty at hempty
  unfold accept
  rw [hs] at hone ⊢
  dsimp only
  rw [if_neg (by decide), if_neg (by simpa using hempty)]
  have hinvalid (hm : type ≠ .listMethod) : Invalid type j = false := by
    rw [Invalid, anyEmpty, hempty, Bool.false_or, decide_eq_false (fun h => hm h.1)]
  have hmessage (hm : type ≠ .listStoragesMethod) := storageTypeOf_message hm hs
  have htransfer (hk : typeKeys type = ["srcStorageType", "destStorageType"]) : UnknownType type j =
      ((getStorageDeviceType (j.get "srcStorageType").asString).isNone ||
        (getStorageDeviceType (j.get "destStorageType").asString).isNone) := by
    rw [UnknownType, hk, List.any_cons, List.any_cons, List.any_nil, Bool.or_false]
  cases type with
  | listMethod =>
    dsimp only
    split
    case isTrue hnum =>
      have hbad : Invalid .listMethod j = true := by rw [Invalid, decide_eq_true ⟨rfl, hnum⟩, Bool.or_true]
      rw [if_pos (.inr (.inl hbad))]
    case isFalse hnum =>
      have hgood : Invalid .listMethod j = false := by
        rw [Invalid, anyEmpty, hempty, Bool.false_or, decide_eq_false (fun h => hnum h.2)]
      exact hone rfl hgood rfl (hmessage (by decide))
  | copyMethod | moveMethod =>
    rw [hinvalid (by decide), htransfer rfl]
    dsimp only [paramsOf]
    rw [storageTypeOf_withSourceType hobj]
    cases getStorageDeviceType (j.get "srcStorageType").asString with
    | none => simp
    | some type => cases getStorageDeviceType (j.get "destStorageType").asString <;> simp [withSourceType]
  | listStoragesMethod =>
    dsimp only [paramsOf]
    rw [hinvalid (by decide), storageTypeOf_eq (by rw [JValue.get_put_self j hobj]; rfl), JValue.get_put_self j hobj,
      if_neg (by simp [UnknownType, typeKeys])]
    rfl
  | _ => exact hone rfl (hinvalid (by decide)) rfl (hmessage (by decide))

/-- The check a message fails first, and the code the client gets. -/
inductive Fault (type : MethodType) : Option JValue → Int → Prop
  | noJson : Fault type none invalidJsonFormat
  | schema (requestObj : JValue) (form : (schema type).accepts requestObj = false) :
      Fault type (some requestObj) invalidJsonFormat
  | value (requestObj : JValue) (form : (schema type).accepts requestObj = true)
      (value : Invalid type requestObj = true) : Fault type (some requestObj) SAFErrors.invalidParam.code
  | storageType (requestObj : JValue) (form : (schema type).accepts requestObj = true)
      (value : Invalid type requestObj = false) (unknown : UnknownType type requestObj = true) :
      Fault type (some requestObj) SAFErrors.storageTypeNotSupported.code

/-- The request that is made of a message. -/
def requestOf (type : MethodType) (message : Option JValue) (sessionId : Str) : Option RequestData :=
  message.bind fun requestObj => accept type requestObj sessionId

/-- A method hands over the request of a message that passes its checks, and names
the first check that any other message fails. -/
theorem call_cases (type : MethodType) (message : Option JValue) (sessionId : Str) :
    (∃ req, requestOf type message sessionId = some req ∧ call type message sessionId = .addRequest req) ∨
      (requestOf type message sessionId = none ∧ ∃ errorCode, Fault type message errorCode ∧
        call type message sessionId = .respond (respondWithError errorCode)) := by
  rw [call_eq_take]
  cases message with
  | none => exact .inr ⟨rfl, _, .noJson, rfl⟩
  | some j =>
    rw [requestOf, Option.bind_some, accept_eq]
    unfold take
    dsimp only
    by_cases hs : (schema type).accepts j = true
    case neg =>
      have hs := Bool.eq_false_iff.2 hs
      exact .inr ⟨if_pos (.inl hs), _, .schema j hs, by rw [hs]; rfl⟩
    by_cases hv : Invalid type j = true
    case pos => exact .inr ⟨if_pos (.inr (.inl hv)), _, .value j hs hv, by rw [hs, hv]; rfl⟩
    have hv := Bool.eq_false_iff.2 hv
    by_cases hu : UnknownType type j = true
    case pos =>
      refine .inr ⟨if_pos (.inr (.inr hu)), _, .storageType j hs hv hu, ?_⟩
      unfold UnknownType at hu
      rw [hs, hv, hu]
      rfl
    have hu := Bool.eq_false_iff.2 hu
    obtain ⟨storageType, htype⟩ := storageTypeOf_paramsOf hs hu
    refine .inl ⟨⟨storageType, type, paramsOf type j, sessionId⟩, ?_, ?_⟩
    · rw [hs, hv, hu, htype]
      rfl
    · unfold UnknownType at hu
      rw [hs, hv, hu, requestBuilder, htype]
      rfl

/-- What is known of a request: the message it was made of, whose storage type is the request's. -/
structure MadeOf (type : MethodType) (requestObj : JValue) (sessionId : Str) (req : RequestData) : Prop where
  form : (schema type).accepts requestObj = true
  storageType : type ≠ .listStoragesMethod → storageTypeOf requestObj = some req.storageType
  methodType : req.methodType = type
  params : req.params = paramsOf type requestObj
  sessionId : req.sessionId = sessionId

theorem storageTypeOf_paramsOf_eq {type : MethodType} (hm : type ≠ .listStoragesMethod) {j : JValue}
    (hs : (schema type).accepts j = true) : storageTypeOf (paramsOf type j) = storageTypeOf j := by
  have hmessage := storageTypeOf_message hm hs
  cases type with
  | listStoragesMethod => exact absurd rfl hm
  | copyMethod | moveMethod => exact (storageTypeOf_withSourceType (isObject_of_accepts hs)).trans hmessage.symm
  | _ => rfl

theorem madeOf {type : MethodType} {message : Option JValue} {sessionId : Str} {req : RequestData}
    (h : requestOf type message sessionId = some req) :
    ∃ requestObj, message = some requestObj ∧ MadeOf type requestObj sessionId req := by
  obtain ⟨j, rfl, haccept⟩ := Option.bind_eq_some_iff.1 h
  rw [accept_eq] at haccept
  split at haccept
  case isTrue => cases haccept
  case isFalse hok =>
  obtain ⟨storageType, htype, rfl⟩ := Option.map_eq_some_iff.1 haccept
  have hs : (schema type).accepts j = true := by
    by_contra hne
    exact hok (.inl (Bool.eq_false_iff.2 hne))
  exact ⟨j, rfl, hs, fun hm => (storageTypeOf_paramsOf_eq hm hs).symm.trans htype, rfl, rfl, rfl⟩

theorem MadeOf.isObject {type : MethodType} {requestObj : JValue} {sessionId : Str} {req : RequestData}
    (h : MadeOf type requestObj sessionId req) : req.params.isObject = true := by
  have hobj := isObject_of_accepts h.form
  rw [h.params]
  cases type with
  | copyMethod | moveMethod | listStoragesMethod => exact (JValue.isObject_put ..).trans hobj
  | _ => exact hobj

end SAFLunaService

end StorageAccess
