import StorageAccess.Proofs.Chains
/-!
# The properties of a USB drive

The answer to a request for properties is put together from the replies to its
calls. Each reply is read for the first of its keys only, a later reply replaces
what an earlier one said, and `returnValue` is not looked at.
-/

open Posix Json

namespace StorageAccess.USBPbnJsonParser

/-- The members of the answer that come from the device manager. -/
inductive Member
  | writable
  | deletable
  | totalSpace
  | freeSpace
  deriving DecidableEq, Repr

namespace Member

def key : Member → String
  | writable => "writable"
  | deletable => "deletable"
  | totalSpace => "totalSpace"
  | freeSpace => "freeSpace"

/-- Where a reply may say a member. -/
def said (reply : JValue) : Member → List JValue
  | writable | deletable => [reply.get "isWritable"]
  | totalSpace => [(reply.get "spaceInfo").get "totalSize", (reply.get "spaceInfo").get "driveSize"]
  | freeSpace => [(reply.get "spaceInfo").get "freeSize"]

/-- How the answer shows what was said. -/
def shown (v : JValue) : Member → JValue
  | writable | deletable => .bool v.asBool
  | totalSpace | freeSpace => v

/-- The reply supplies the member: what it says there is neither missing nor null. -/
def Supplied (reply : JValue) (m : Member) : Prop := ∃ v ∈ m.said reply, v ≠ .null

end Member

/-- What is promised of the answer to a request for properties. -/
structure Sound (replies : List JValue) (respObj : JValue) : Prop where
  /-- No reply with an error is behind an answer without one. -/
  honest : respObj.get "returnValue" = .bool true → ∀ reply ∈ replies, reply.get "returnValue" ≠ .bool false
  /-- What the replies supply is in the answer. -/
  carries : respObj.get "returnValue" = .bool true →
    ∀ m : Member, (∃ reply ∈ replies, m.Supplied reply) → respObj.get m.key ≠ .null
  /-- What is in the answer was said by a reply. -/
  genuine : ∀ m : Member, respObj.get m.key ≠ .null →
    ∃ reply ∈ replies, ∃ v ∈ m.said reply, respObj.get m.key = m.shown v

/-! ## Which replies are read -/

/-- The sizes are read from replies that have neither of the keys looked at before. -/
def readsSpace (reply : JValue) : Bool :=
  !reply.hasKey "storageType" && !reply.hasKey "isWritable" && reply.hasKey "spaceInfo"

def readsWritable (reply : JValue) : Bool := !reply.hasKey "storageType" && reply.hasKey "isWritable"

/-- A reply is read for a member. -/
def Member.reads (reply : JValue) : Member → Bool
  | writable | deletable => readsWritable reply
  | totalSpace =>
    readsSpace reply && ((reply.get "spaceInfo").hasKey "totalSize" || (reply.get "spaceInfo").hasKey "driveSize")
  | freeSpace => readsSpace reply

/-- What is read of such a reply. -/
def Member.value (reply : JValue) : Member → JValue
  | writable | deletable => .bool (reply.get "isWritable").asBool
  | totalSpace =>
    if (reply.get "spaceInfo").hasKey "driveSize" then (reply.get "spaceInfo").get "driveSize"
    else (reply.get "spaceInfo").get "totalSize"
  | freeSpace => (reply.get "spaceInfo").get "freeSize"

/-- The last reply that is read for a member. -/
def Member.lastRead (replies : List JValue) (m : Member) : Option JValue := replies.reverse.find? m.reads

theorem isObject_readReply {respObj : JValue} (h : respObj.isObject = true) (reply : JValue) :
    (readReply respObj reply).isObject = true := by
  unfold readReply
  split
  · simpa using h
  split
  · simpa using h
  split
  · dsimp only
    rw [JValue.isObject_put]
    split <;> split <;> simpa using h
  · exact h

/-- A reply sets the members it is read for and no other. -/
theorem get_readReply {respObj : JValue} (h : respObj.isObject = true) (reply : JValue) (m : Member) :
    (readReply respObj reply).get m.key = if m.reads reply then m.value reply else respObj.get m.key := by
  unfold readReply
  by_cases hs : reply.hasKey "storageType" = true
  · have hnot : m.reads reply = false := by cases m <;> simp [Member.reads, readsWritable, readsSpace, hs]
    rw [if_pos hs, hnot, JValue.get_put _ h, if_neg (by cases m <;> decide)]
    rfl
  rw [if_neg hs]
  by_cases hw : reply.hasKey "isWritable" = true
  · rw [if_pos hw]
    cases m <;> simp [Member.reads, readsWritable, readsSpace, hs, hw, Member.key, Member.value, JValue.get_put, h]
  rw [if_neg hw]
  by_cases hi : reply.hasKey "spaceInfo" = true
  · rw [if_pos hi]
    dsimp only
    by_cases ht : (reply.get "spaceInfo").hasKey "totalSize" = true <;>
      by_cases hd : (reply.get "spaceInfo").hasKey "driveSize" = true <;>
      cases m <;> simp [Member.reads, readsWritable, readsSpace, hs, hw, hi, ht, hd, Member.key, Member.value,
        JValue.get_put, h]
  · rw [if_neg hi]
    cases m <;> simp [Member.reads, readsWritable, readsSpace, hw, hi]

/-- No reply touches the verdict. -/
theorem get_returnValue_readReply {respObj : JValue} (h : respObj.isObject = true) (reply : JValue) :
    (readReply respObj reply).get "returnValue" = respObj.get "returnValue" := by
  unfold readReply
  split
  · rw [JValue.get_put _ h, if_neg (by decide)]
  split
  · simp [JValue.get_put, h]
  split
  · dsimp only
    split <;> split <;> simp [JValue.get_put, h]
  · rfl

/-! ## All replies -/

/-- The last reply that is read for a member decides it. -/
theorem get_foldl_readReply (replies : List JValue) {respObj : JValue} (h : respObj.isObject = true) (m : Member) :
    (replies.foldl readReply respObj).get m.key =
      match m.lastRead replies with
      | some reply => m.value reply
      | none => respObj.get m.key := by
  induction replies generalizing respObj with
  | nil => rfl
  | cons reply replies ih =>
    have hlast : m.lastRead (reply :: replies) = (m.lastRead replies).or (if m.reads reply then some reply else none) := by
      rw [Member.lastRead, List.reverse_cons, List.find?_append]
      cases hread : m.reads reply <;> simp [Member.lastRead, hread]
    rw [List.foldl_cons, ih (isObject_readReply h reply), hlast]
    cases m.lastRead replies with
    | some later => rfl
    | none =>
      rw [Option.none_or, get_readReply h]
      cases m.reads reply <;> rfl

theorem get_returnValue_foldl (replies : List JValue) {respObj : JValue} (h : respObj.isObject = true) :
    (replies.foldl readReply respObj).get "returnValue" = respObj.get "returnValue" := by
  induction replies generalizing respObj with
  | nil => rfl
  | cons reply replies ih => rw [List.foldl_cons, ih (isObject_readReply h reply), get_returnValue_readReply h]

/-- The verdict stands before the first reply is read. -/
theorem get_returnValue_parse (replies : List JValue) : (parseGetProperties (.arr replies)).get "returnValue" = .bool true :=
  get_returnValue_foldl replies rfl

theorem get_parse (replies : List JValue) (m : Member) :
    (parseGetProperties (.arr replies)).get m.key =
      match m.lastRead replies with
      | some reply => m.value reply
      | none => .null := by
  have hobj : (JValue.object.put "returnValue" (.bool true)).isObject = true := rfl
  refine (get_foldl_readReply replies hobj m).trans ?_
  cases m.lastRead replies with
  | some reply => rfl
  | none => cases m <;> rfl

theorem lastRead_some {replies : List JValue} {m : Member} {reply : JValue} (h : m.lastRead replies = some reply) :
    reply ∈ replies ∧ m.reads reply = true :=
  ⟨List.mem_reverse.1 (List.mem_of_find?_eq_some h), List.find?_some (p := fun r => m.reads r) h⟩

/-- What is read of a reply is something it says. -/
theorem value_eq_shown (m : Member) (reply : JValue) : ∃ v ∈ m.said reply, m.value reply = m.shown v := by
  cases m with
  | writable | deletable => exact ⟨_, List.mem_singleton_self _, rfl⟩
  | freeSpace => exact ⟨_, List.mem_singleton_self _, rfl⟩
  | totalSpace =>
    by_cases hd : (reply.get "spaceInfo").hasKey "driveSize" = true
    · exact ⟨(reply.get "spaceInfo").get "driveSize", by simp [Member.said], if_pos hd⟩
    · exact ⟨(reply.get "spaceInfo").get "totalSize", by simp [Member.said], if_neg hd⟩

/-- No reply is an error, and of a member that some reply supplies the last reply that is read for it has a value. -/
structure Heard (replies : List JValue) : Prop where
  noError : ∀ reply ∈ replies, reply.get "returnValue" ≠ .bool false
  read : ∀ m : Member, (∃ reply ∈ replies, m.Supplied reply) →
    ∃ reply, m.lastRead replies = some reply ∧ m.value reply ≠ .null

/-- The promise is kept exactly for such replies: an error among them is swallowed, and so
is what is said in a reply that has an earlier key too. -/
theorem properties_iff (replies : List JValue) : Sound replies (parseGetProperties (.arr replies)) ↔ Heard replies := by
  constructor
  · intro h
    have htrue := get_returnValue_parse replies
    refine ⟨h.honest htrue, fun m hm => ?_⟩
    have hcarried := h.carries htrue m hm
    rw [get_parse] at hcarried
    cases hlast : m.lastRead replies with
    | some reply =>
      rw [hlast] at hcarried
      exact ⟨reply, rfl, hcarried⟩
    | none =>
      rw [hlast] at hcarried
      exact absurd rfl hcarried
  · intro h
    refine ⟨fun _ => h.noError, fun _ m hm => ?_, fun m hne => ?_⟩
    · obtain ⟨reply, hlast, hvalue⟩ := h.read m hm
      rw [get_parse, hlast]
      exact hvalue
    · rw [get_parse] at hne ⊢
      cases hlast : m.lastRead replies with
      | some reply =>
        obtain ⟨v, hv, hshown⟩ := value_eq_shown m reply
        exact ⟨reply, (lastRead_some hlast).1, v, hv, hshown⟩
      | none =>
        rw [hlast] at hne
        exact absurd rfl hne

/-- What the device manager answers when it fails. -/
def failedCall : JValue :=
  ((JValue.object.put "returnValue" (.bool false)).put "errorCode" (.num (-5))).put "errorText" (.text "Operation failed")

/-- Both calls fail, and the client is told of a success without any properties. -/
theorem failed_calls_swallowed :
    let replies := [JValue.object.put "storageType" (.text "usb"), failedCall, failedCall]
    SAFLunaService.onGetPropertiesReply USBStorageProvider.Chained.askDrive (.arr replies) =
        (JValue.object.put "returnValue" (.bool true)).put "storageType" (.text "usb") ∧
      ¬ Sound replies (parseGetProperties (.arr replies)) := by
  intro replies
  refine ⟨rfl, fun h => ?_⟩
  exact h.honest rfl failedCall (by simp [replies]) rfl

end StorageAccess.USBPbnJsonParser
