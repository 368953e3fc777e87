import StorageAccess.Lib.Shell
import StorageAccess.Proofs.Collisions
/-!
# What a mount request hands to the shell and to mount

The path of a share and the id of its session go into command lines without quotes,
and the fields of the request into a list of options without escapes. The shell reads
the path as one word, and `mount` every field as it was sent, exactly when the fields
hold no character that either of them treats specially.
-/

open Posix Json

namespace StorageAccess

open SAFUtilityOperation

namespace NetworkProvider

def mkdirLine (path : Str) : Str := "mkdir -p ".toList ++ path

def chownLine (sessionId path : Str) : Str := "chown ".toList ++ sessionId ++ ": ".toList ++ path

def chmodLine (path : Str) : Str := "chmod 700 ".toList ++ path

/-- The options a mount request means, with their values. -/
def meantOptions (net : Net) (req : RequestData) : List (Str × Str) :=
  [("ip".toList, (share req).ip), ("unc".toList, "\\\\".toList ++ (share req).ip ++ '\\' :: (share req).userName),
    ("user".toList, (share req).userName), ("pass".toList, ((payload req).get "password").asString),
    ("sec".toList, ((payload req).get "securityMode").asString), ("uid".toList, Nat.toDigits 10 net.uid),
    ("gid".toList, Nat.toDigits 10 net.gid)]

/-- A command line has its own words and the path as one, and the options are read as they are meant. -/
def ReadRight (net : Net) (req : RequestData) : FsOp → Prop
  | .shell line =>
    let path := newMount net req
    line = mkdirLine path ∧ Shell.command line = some ["mkdir".toList, "-p".toList, path] ∨
    line = chownLine req.sessionId path ∧ Shell.command line = some ["chown".toList, req.sessionId ++ ":".toList, path] ∨
    line = chmodLine path ∧ Shell.command line = some ["chmod".toList, "700".toList, path]
  | .mount _ _ data _ => Joined.options ',' '=' (untilNul data) = (meantOptions net req).map some
  | _ => True

/-- The text stands for itself inside a word of a command line: its characters do, and no `]` in it ends a pattern. -/
structure ShellPlain (text : Str) : Prop where
  chars : ∀ c ∈ text, Shell.ordinary c = true ∧ c ≠ Char.ofNat 0
  pattern : (Shell.Bracket.out.along text).isSome = true

theorem shellPlain_iff (text : Str) : ShellPlain text ↔
    (text.all fun c => Shell.ordinary c && decide (c ≠ Char.ofNat 0)) = true ∧ (Shell.Bracket.out.along text).isSome = true := by
  simp only [List.all_eq_true, Bool.and_eq_true, decide_eq_true_eq]
  exact ⟨fun h => ⟨h.chars, h.pattern⟩, fun h => ⟨h.1, h.2⟩⟩

instance (text : Str) : Decidable (ShellPlain text) := decidable_of_iff _ (shellPlain_iff text).symm

/-- The text stands for itself as the value of an option. -/
def OptionPlain (text : Str) : Prop := ',' ∉ text ∧ Char.ofNat 0 ∉ text

instance (text : Str) : Decidable (OptionPlain text) :=
  inferInstanceAs (Decidable (',' ∉ text ∧ Char.ofNat 0 ∉ text))

/-! ## Command lines -/

/-- A word of plain characters that begins with none of the two signs. -/
theorem plainWord_iff {w : Str} (hne : w ≠ []) (hfirst : w.head? ≠ some '#' ∧ w.head? ≠ some '~') :
    Shell.PlainWord w ∧ Char.ofNat 0 ∉ w ↔ ShellPlain w := by
  constructor
  · rintro ⟨hw, hnul⟩
    exact ⟨fun c hc => ⟨hw.chars c hc, fun he => hnul (he ▸ hc)⟩, hw.pattern⟩
  · intro h
    exact ⟨⟨hne, hfirst, fun c hc => (h.chars c hc).1, h.pattern⟩, fun hm => (h.chars _ hm).2 rfl⟩

/-- The session id stands for itself in a command line. -/
structure SessionPlain (sessionId : Str) : Prop where
  plain : ShellPlain sessionId
  first : sessionId.head? ≠ some '#' ∧ sessionId.head? ≠ some '~'

theorem sessionPlain_iff (sessionId : Str) :
    Shell.PlainWord (sessionId ++ ":".toList) ∧ Char.ofNat 0 ∉ sessionId ++ ":".toList ↔ SessionPlain sessionId := by
  have hcolon := (by decide : ShellPlain ":".toList).chars
  have hpattern : (Shell.Bracket.out.along (sessionId ++ ":".toList)).isSome = true ↔
      (Shell.Bracket.out.along sessionId).isSome = true := Shell.Bracket.isSome_along_append (by decide)
  have hhead : (sessionId ++ ":".toList).head? ≠ some '#' ∧ (sessionId ++ ":".toList).head? ≠ some '~' ↔
      sessionId.head? ≠ some '#' ∧ sessionId.head? ≠ some '~' := by
    cases sessionId <;> simp
  constructor
  · intro h
    have hfirst := h.1.first
    have hplain := (plainWord_iff (by simp) hfirst).1 h
    exact ⟨⟨fun c hc => hplain.chars c (List.mem_append_left _ hc), hpattern.1 hplain.pattern⟩, hhead.1 hfirst⟩
  · intro h
    exact (plainWord_iff (by simp) (hhead.2 h.first)).2
      ⟨List.forall_mem_append.2 ⟨h.plain.chars, hcolon⟩, hpattern.2 h.plain.pattern⟩

section Path
variable {path : Str} (hne : path ≠ []) (hlast : path.getLast? ≠ some '\\')
include hne hlast

/-- A line of a known word, a second one and the path. -/
theorem command_path_iff {name : Str} (hname : Shell.PlainWord name ∧ Char.ofNat 0 ∉ name) (second : Str) :
    Shell.command (name ++ ' ' :: (second ++ ' ' :: path)) = some [name, second, path] ↔
      (Shell.PlainWord second ∧ Char.ofNat 0 ∉ second) ∧ Shell.PlainWord path ∧ Char.ofNat 0 ∉ path := by
  have hline : name ++ ' ' :: (second ++ ' ' :: path) = Joined.join ' ' [name, second, path] := by
    rw [Joined.join_cons (by simp), Joined.join_cons (by simp), Joined.join_singleton]
  have hsplit : name ++ ' ' :: (second ++ ' ' :: path) = (name ++ ' ' :: (second ++ [' '])) ++ path := by simp
  have hend : (Joined.join ' ' [name, second, path]).getLast? ≠ some '\\' := by
    rwa [← hline, hsplit, List.getLast?_append_of_ne_nil _ hne]
  rw [hline, Shell.command_join_iff (by simp) hend]
  simp only [List.forall_mem_cons, List.not_mem_nil, false_imp_iff, forall_const, and_true]
  exact and_iff_right hname

theorem command_mkdir_iff : Shell.command (mkdirLine path) = some ["mkdir".toList, "-p".toList, path] ↔
    Shell.PlainWord path ∧ Char.ofNat 0 ∉ path := by
  have hmkdir := (plainWord_iff (w := "mkdir".toList) (by decide) (by decide)).2 (by decide)
  have hflag := (plainWord_iff (w := "-p".toList) (by decide) (by decide)).2 (by decide)
  exact (command_path_iff hne hlast hmkdir "-p".toList).trans (and_iff_right hflag)

theorem command_chmod_iff : Shell.command (chmodLine path) = some ["chmod".toList, "700".toList, path] ↔
    Shell.PlainWord path ∧ Char.ofNat 0 ∉ path := by
  have hchmod := (plainWord_iff (w := "chmod".toList) (by decide) (by decide)).2 (by decide)
  have hmode := (plainWord_iff (w := "700".toList) (by decide) (by decide)).2 (by decide)
  exact (command_path_iff hne hlast hchmod "700".toList).trans (and_iff_right hmode)

theorem command_chown_iff (sessionId : Str) :
    Shell.command (chownLine sessionId path) = some ["chown".toList, sessionId ++ ":".toList, path] ↔
      SessionPlain sessionId ∧ Shell.PlainWord path ∧ Char.ofNat 0 ∉ path := by
  have hchown := (plainWord_iff (w := "chown".toList) (by decide) (by decide)).2 (by decide)
  have hline (name colon : Str) : name ++ [' '] ++ sessionId ++ (colon ++ [' ']) ++ path =
      name ++ ' ' :: ((sessionId ++ colon) ++ ' ' :: path) := by simp
  have hwords : chownLine sessionId path = "chown".toList ++ ' ' :: ((sessionId ++ ":".toList) ++ ' ' :: path) :=
    hline "chown".toList ":".toList
  rw [hwords]
  exact (command_path_iff hne hlast hchown (sessionId ++ ":".toList)).trans (and_congr_left fun _ => sessionPlain_iff sessionId)

end Path

/-! ## Ends of paths -/

/-- The time and the signs around it are plain. -/
theorem plain_of_mem_time {c : Clock} {ch : Char} (h : ch ∈ '_' :: getTimestamp c) :
    (Shell.ordinary ch = true ∧ ch ≠ Char.ofNat 0) ∧ ch ≠ ']' := by
  rcases List.mem_cons.1 h with rfl | h
  · decide
  rcases mem_getTimestamp h with hdigit | rfl | rfl
  · refine ⟨⟨Shell.ordinary_of_isDigit hdigit, ?_⟩, ?_⟩
    all_goals
      rintro rfl
      exact absurd hdigit (by decide)
  · decide
  · decide

theorem shellPlain_mountPath_iff (ip : Str) (c : Clock) : ShellPlain (mountPath ip c) ↔ ShellPlain ip := by
  have htmp := (by decide : ShellPlain "/tmp/".toList).chars
  have hend : ']' ∉ '_' :: getTimestamp c := fun hm => (plain_of_mem_time hm).2 rfl
  have hpattern : (Shell.Bracket.out.along (mountPath ip c)).isSome = true ↔
      (Shell.Bracket.out.along ip).isSome = true := by
    have hstart : Shell.Bracket.out.along "/tmp/".toList = some .out := rfl
    unfold mountPath
    rw [Shell.Bracket.isSome_along_append hend, Shell.Bracket.along_append, hstart]
    rfl
  constructor
  · intro h
    refine ⟨fun ch hch => h.chars ch ?_, hpattern.1 h.pattern⟩
    exact List.mem_append_left _ (List.mem_append_right _ hch)
  · intro h
    refine ⟨?_, hpattern.2 h.pattern⟩
    unfold mountPath
    rw [List.forall_mem_append, List.forall_mem_append]
    exact ⟨⟨htmp, h.chars⟩, fun ch hch => (plain_of_mem_time hch).1⟩

theorem head_mountPath (ip : Str) (c : Clock) : (mountPath ip c).head? = some '/' := rfl

theorem getLast_mountPath (ip : Str) (c : Clock) : (mountPath ip c).getLast? ≠ some '\\' := by
  have hdigits (text : Str) : (text ++ Nat.toDigits 10 c.millis).getLast? ≠ some '\\' := by
    rw [List.getLast?_append_of_ne_nil _ Nat.toDigits_ne_nil]
    intro h
    exact not_mem_toDigits rfl (List.mem_of_getLast? h)
  have hsplit : mountPath ip c = ("/tmp/".toList ++ ip ++ '_' :: (twoDigits c.hour ++
      ':' :: twoDigits c.minute ++ ':' :: twoDigits c.second ++ ['_'])) ++ Nat.toDigits 10 c.millis := by
    unfold mountPath getTimestamp
    simp only [List.append_assoc, List.cons_append, List.nil_append]
  rw [hsplit]
  exact hdigits _

theorem plainWord_mountPath_iff (ip : Str) (c : Clock) :
    Shell.PlainWord (mountPath ip c) ∧ Char.ofNat 0 ∉ mountPath ip c ↔ ShellPlain ip := by
  have hne : mountPath ip c ≠ [] := fun h => absurd (head_mountPath ip c) (by rw [h]; nofun)
  have hfirst : (mountPath ip c).head? ≠ some '#' ∧ (mountPath ip c).head? ≠ some '~' := by
    rw [head_mountPath]
    decide
  exact (plainWord_iff hne hfirst).trans (shellPlain_mountPath_iff ip c)

/-! ## Each operation -/

section Operations
variable (net : Net) (req : RequestData)

theorem plainWord_newMount_iff :
    Shell.PlainWord (newMount net req) ∧ Char.ofNat 0 ∉ newMount net req ↔ ShellPlain (share req).ip :=
  plainWord_mountPath_iff _ _

theorem newMount_ne_nil : newMount net req ≠ [] := by
  intro h
  have hhead := head_mountPath (share req).ip net.clock
  have hpath : mountPath (share req).ip net.clock = newMount net req := rfl
  rw [hpath, h] at hhead
  cases hhead

/-- The three commands begin differently. -/
theorem take_mkdirLine (path : Str) : (mkdirLine path).take 3 = "mkd".toList := rfl

theorem take_chownLine (sessionId path : Str) : (chownLine sessionId path).take 3 = "cho".toList := rfl

theorem take_chmodLine (path : Str) : (chmodLine path).take 3 = "chm".toList := rfl

theorem readRight_mkdir_iff : ReadRight net req (.shell (mkdirLine (newMount net req))) ↔ ShellPlain (share req).ip := by
  have hwords := command_mkdir_iff (newMount_ne_nil net req) (getLast_mountPath _ _)
  rw [← plainWord_newMount_iff net req, ← hwords]
  constructor
  · rintro (⟨-, h⟩ | ⟨he, -⟩ | ⟨he, -⟩)
    · exact h
    · exact absurd ((take_mkdirLine _).symm.trans ((congrArg (List.take 3) he).trans (take_chownLine _ _))) (by decide)
    · exact absurd ((take_mkdirLine _).symm.trans ((congrArg (List.take 3) he).trans (take_chmodLine _))) (by decide)
  · intro h
    exact .inl ⟨rfl, h⟩

theorem readRight_chown_iff : ReadRight net req (.shell (chownLine req.sessionId (newMount net req))) ↔
    SessionPlain req.sessionId ∧ ShellPlain (share req).ip := by
  have hwords := command_chown_iff (newMount_ne_nil net req) (getLast_mountPath _ _) req.sessionId
  rw [← plainWord_newMount_iff net req, ← hwords]
  constructor
  · rintro (⟨he, -⟩ | ⟨-, h⟩ | ⟨he, -⟩)
    · exact absurd ((take_chownLine _ _).symm.trans ((congrArg (List.take 3) he).trans (take_mkdirLine _))) (by decide)
    · exact h
    · exact absurd ((take_chownLine _ _).symm.trans ((congrArg (List.take 3) he).trans (take_chmodLine _))) (by decide)
  · intro h
    exact .inr (.inl ⟨rfl, h⟩)

theorem readRight_chmod_iff : ReadRight net req (.shell (chmodLine (newMount net req))) ↔ ShellPlain (share req).ip := by
  have hwords := command_chmod_iff (newMount_ne_nil net req) (getLast_mountPath _ _)
  rw [← plainWord_newMount_iff net req, ← hwords]
  constructor
  · rintro (⟨he, -⟩ | ⟨he, -⟩ | ⟨-, h⟩)
    · exact absurd ((take_chmodLine _).symm.trans ((congrArg (List.take 3) he).trans (take_mkdirLine _))) (by decide)
    · exact absurd ((take_chmodLine _).symm.trans ((congrArg (List.take 3) he).trans (take_chownLine _ _))) (by decide)
    · exact h
  · intro h
    exact .inr (.inr ⟨rfl, h⟩)

/-- The options are the fields with their names, joined by commas. -/
theorem newData_eq_join : newData net req = Joined.join ',' ((meantOptions net req).map (Joined.encode '=')) := by
  -- over any names and values: the literals are never looked into
  have hline (ip user pass sec uid gid slashes a b c d e f g : Str) :
      a ++ ['='] ++ ip ++ (',' :: b ++ '=' :: slashes) ++ ip ++ '\\' :: user ++ (',' :: c ++ ['=']) ++ user ++
        (',' :: d ++ ['=']) ++ pass ++ (',' :: e ++ ['=']) ++ sec ++ (',' :: f ++ ['=']) ++ uid ++ (',' :: g ++ ['=']) ++ gid =
      Joined.join ',' ([(a, ip), (b, slashes ++ ip ++ '\\' :: user), (c, user), (d, pass), (e, sec), (f, uid), (g, gid)].map
        (Joined.encode '=')) := by
    simp [Joined.join_cons, Joined.encode]
  exact hline _ _ _ _ _ _ "\\\\".toList "ip".toList "unc".toList "user".toList "pass".toList "sec".toList "uid".toList "gid".toList

/-- The names of the options hold neither sign, nor a NUL. -/
theorem name_of_mem_meantOptions {p : Str × Str} (hp : p ∈ meantOptions net req) :
    '=' ∉ p.1 ∧ ',' ∉ p.1 ∧ Char.ofNat 0 ∉ p.1 := by
  have hnames : (meantOptions net req).map Prod.fst =
      ["ip".toList, "unc".toList, "user".toList, "pass".toList, "sec".toList, "uid".toList, "gid".toList] := rfl
  have hmem : p.1 ∈ (meantOptions net req).map Prod.fst := List.mem_map_of_mem hp
  have hfree : ∀ name ∈ ["ip".toList, "unc".toList, "user".toList, "pass".toList, "sec".toList, "uid".toList, "gid".toList],
      '=' ∉ name ∧ ',' ∉ name ∧ Char.ofNat 0 ∉ name := by decide
  exact hfree _ (hnames ▸ hmem)

/-- The fields of a mount request that go into its options. -/
def optionFields : List Str :=
  [(share req).ip, (share req).userName, ((payload req).get "password").asString, ((payload req).get "securityMode").asString]

/-- The values are the fields, some of them twice, and two numbers. -/
theorem not_mem_values_iff {c : Char} (hdigit : c.isDigit = false) (hslash : c ≠ '\\') :
    (∀ p ∈ meantOptions net req, c ∉ p.2) ↔ ∀ text ∈ optionFields req, c ∉ text := by
  have hnumber (n : Nat) : c ∉ Nat.toDigits 10 n := not_mem_toDigits hdigit
  simp only [meantOptions, optionFields, List.forall_mem_cons, List.not_mem_nil, false_imp_iff, implies_true, and_true, hnumber,
    not_false_eq_true]
  constructor
  · rintro ⟨hip, -, huser, hpass, hsec⟩
    exact ⟨hip, huser, hpass, hsec⟩
  · rintro ⟨hip, huser, hpass, hsec⟩
    have hslashes : c ∉ "\\\\".toList := by simpa using hslash
    have hunc : c ∉ "\\\\".toList ++ (share req).ip ++ '\\' :: (share req).userName := by
      simp only [List.mem_append, List.mem_cons, not_or]
      exact ⟨⟨hslashes, hip⟩, hslash, huser⟩
    exact ⟨hip, hunc, huser, hpass, hsec⟩

theorem readRight_mount_iff (source path : Str) (done : Bool) :
    ReadRight net req (.mount source path (newData net req) done) ↔ ∀ text ∈ optionFields req, OptionPlain text := by
  have hnul : Char.ofNat 0 ∉ newData net req ↔ ∀ p ∈ meantOptions net req, Char.ofNat 0 ∉ p.2 := by
    rw [newData_eq_join, Joined.mem_join_iff (by decide)]
    constructor
    · intro h p hp hm
      exact h ⟨_, List.mem_map_of_mem hp, List.mem_append_right _ (List.mem_cons_of_mem _ hm)⟩
    · rintro h ⟨field, hfield, hm⟩
      obtain ⟨p, hp, rfl⟩ := List.mem_map.1 hfield
      rcases List.mem_append.1 hm with hm | hm
      · exact (name_of_mem_meantOptions net req hp).2.2 hm
      · exact h p hp ((List.mem_cons.1 hm).resolve_left (by decide))
  have hkeys (p : Str × Str) (hp : p ∈ meantOptions net req) : '=' ∉ p.1 ∧ ',' ∉ p.1 :=
    ⟨(name_of_mem_meantOptions net req hp).1, (name_of_mem_meantOptions net req hp).2.1⟩
  have hsome : meantOptions net req ≠ [] := List.cons_ne_nil _ _
  have hread := Joined.options_eq_iff hsome hkeys (by decide : ',' ≠ '=') (untilNul (newData net req))
  rw [← newData_eq_join, untilNul_eq_self_iff, hnul, not_mem_values_iff net req (by decide) (by decide),
    not_mem_values_iff net req (by decide) (by decide)] at hread
  refine hread.trans ⟨fun h text ht => ⟨h.2 text ht, h.1 text ht⟩, fun h => ?_⟩
  exact ⟨fun text ht => (h text ht).2, fun text ht => (h text ht).1⟩

theorem readRight_permission_iff (tree : FS) :
    (∀ op ∈ permissionOps tree (newMount net req) req.sessionId, ReadRight net req op) ↔
      (tree.exists? (components (newMount net req)) = true → SessionPlain req.sessionId ∧ ShellPlain (share req).ip) := by
  unfold permissionOps
  split
  case isTrue hthere =>
    rw [imp_iff_right hthere, List.forall_mem_cons, List.forall_mem_singleton]
    exact (and_congr (readRight_chown_iff net req) (readRight_chmod_iff net req)).trans
      ⟨fun h => h.1, fun h => ⟨h, h.2⟩⟩
  case isFalse hgone => exact iff_of_true (by simp) fun h => absurd h hgone

end Operations

/-! ## Each request -/

section Request
variable (s : NetworkProvider) (net : Net) (req : RequestData)

/-- The request is not refused before the command that makes the directory. -/
structure RunsMkdir : Prop where
  valid : Valid req
  new : (share req).key ∉ s.mSambaDriveMap

/-- The command was run, and the directory is not in use. -/
structure CallsMount : Prop extends RunsMkdir s req where
  made : net.mkdir.isSome
  free : newMount net req ∉ s.mntpathmap

/-- The share was mounted, and its directory is there. -/
structure GivesPath : Prop extends CallsMount s net req where
  there : ∃ tree, net.mount = some tree ∧ tree.exists? (components (newMount net req)) = true

/-- The fields are plain wherever the request reaches a command or the mount. -/
structure PlainFields : Prop where
  path : RunsMkdir s req → ShellPlain (share req).ip
  options : CallsMount s net req → ∀ text ∈ optionFields req, OptionPlain text
  session : GivesPath s net req → SessionPlain req.sessionId

end Request

end NetworkProvider

open NetworkProvider in
/-- What a mount request hands to the shell and to `mount` is read as it is meant
exactly when the fields that it hands on are plain. -/
theorem mount_request_read_iff (s : Service) (env : Env) (req : RequestData) (hreq : AsksMount req) :
    (∀ op ∈ newOps s.world (s.step (.request env req)).world, ReadRight env.net req op) ↔
      PlainFields s.network env.net req := by
  -- a request that is refused before the first command hands on nothing
  have hrefused {w' : World} (hops : w'.ops = s.world.ops) (hno : ¬ RunsMkdir s.network req) :
      (∀ op ∈ newOps s.world w', ReadRight env.net req op) ↔ PlainFields s.network env.net req := by
    rw [newOps_of_append (hops.trans (List.append_nil _).symm)]
    exact iff_of_true nofun ⟨fun h => absurd h hno, fun h => absurd h.toRunsMkdir hno, fun h => absurd h.toRunsMkdir hno⟩
  -- and one that stops after it, the path only
  have honly {w' : World} (hops : w'.ops = s.world.ops ++ [.shell (mkdirLine (newMount env.net req))])
      (hmkdir : RunsMkdir s.network req) (hno : ¬ CallsMount s.network env.net req) :
      (∀ op ∈ newOps s.world w', ReadRight env.net req op) ↔ PlainFields s.network env.net req := by
    rw [newOps_of_append hops, List.forall_mem_singleton]
    refine (readRight_mkdir_iff env.net req).trans ⟨fun h => ?_, fun h => h.path hmkdir⟩
    exact ⟨fun _ => h, fun hm => absurd hm hno, fun hg => absurd hg.toCallsMount hno⟩
  rw [step_network hreq.1, handleRequests_mount hreq.2]
  split
  case isFalse hv => exact hrefused rfl fun h => hv h.valid.extra
  case isTrue hv =>
  cases mountStep_mountSambaServer env.net req s.network s.world with
  | incomplete text missing tables world => exact hrefused (by rw [world]; rfl) fun h => missing h.valid.complete
  | known complete found tables world => exact hrefused (by rw [world]; rfl) fun h => h.new found
  | unmade complete new nodir tables world =>
    exact honly (congrArg World.ops world) ⟨⟨hv, complete⟩, new⟩ fun h => by simpa [nodir] using h.made
  | inUse complete new made dir used tables world =>
    exact honly (congrArg World.ops world) ⟨⟨hv, complete⟩, new⟩ fun h => h.free used
  | failed complete new made dir free unmounted tables world =>
    have hmount : CallsMount s.network env.net req := ⟨⟨⟨hv, complete⟩, new⟩, by simp [dir], free⟩
    have hops : (mountSambaServer env.net req s.network s.world).2.ops = s.world.ops ++
        [.shell (mkdirLine (newMount env.net req)), .mount (mountSource (share req).ip (share req).userName)
          (newMount env.net req) (newData env.net req) false] := by
      rw [world, World.reply_ops, World.log_ops]
      exact List.append_assoc _ _ _
    rw [newOps_of_append hops, List.forall_mem_cons, List.forall_mem_singleton, readRight_mkdir_iff, readRight_mount_iff]
    constructor
    · rintro ⟨hpath, hoptions⟩
      refine ⟨fun _ => hpath, fun _ => hoptions, fun hg => ?_⟩
      obtain ⟨tree, hmounted, -⟩ := hg.there
      simp [unmounted] at hmounted
    · intro h
      exact ⟨h.path hmount.toRunsMkdir, h.options hmount⟩
  | mounted complete new made dir free tree mount tables world =>
    have hmount : CallsMount s.network env.net req := ⟨⟨⟨hv, complete⟩, new⟩, by simp [dir], free⟩
    have hops : (mountSambaServer env.net req s.network s.world).2.ops = s.world.ops ++ mountOps env.net req tree := by
      rw [world]
      exact afterMount_ops env.net req s.world made tree
    have hmkdir := readRight_mkdir_iff env.net req
    rw [newOps_of_append hops, mountOps, List.forall_mem_cons, List.forall_mem_cons, readRight_mount_iff,
      readRight_permission_iff]
    constructor
    · rintro ⟨hpath, hoptions, hsession⟩
      refine ⟨fun _ => hmkdir.1 hpath, fun _ => hoptions, fun hg => ?_⟩
      obtain ⟨tree', hmounted, hthere⟩ := hg.there
      obtain rfl := Option.some.inj (mount.symm.trans hmounted)
      exact (hsession hthere).1
    · intro h
      have hpath := h.path hmount.toRunsMkdir
      exact ⟨hmkdir.2 hpath, h.options hmount, fun hthere => ⟨h.session ⟨hmount, tree, mount, hthere⟩, hpath⟩⟩

/-- A request with plain fields on a service that just started. -/
theorem guest_mount_read :
    AsksMount (mountCall "a" "guest") ∧ ∀ op ∈ newOps (Service.start twoMounts ∅).world
      ((Service.start twoMounts ∅).step (.request (mountEnv 7) (mountCall "a" "guest"))).world,
      NetworkProvider.ReadRight (mountEnv 7).net (mountCall "a" "guest") op := by
  have hreq : AsksMount (mountCall "a" "guest") := by decide
  refine ⟨hreq, (mount_request_read_iff (Service.start twoMounts ∅) (mountEnv 7) (mountCall "a" "guest") hreq).2 ?_⟩
  exact ⟨fun _ => by decide, fun _ => by decide, fun _ => ⟨by decide, by decide⟩⟩

def fieldCall (ip password : String) : RequestData :=
  ⟨.network, .extraMethod,
    JValue.object.put "operation" ((JValue.object.put "type" (.text "mountSambaServer")).put "payload"
      (((((JValue.object.put "ip" (.text ip)).put "sharePath" (.text "a")).put "userName" (.text "u")).put "password"
        (.text password)).put "securityMode" (.text "s"))),
    "guest".toList⟩

open NetworkProvider in
/-- An address with a blank makes two directories, and a password with a comma is
mounted with an option more. -/
theorem fields_inject :
    let ops (req : RequestData) : List FsOp :=
      newOps (Service.start twoMounts ∅).world ((Service.start twoMounts ∅).step (.request (mountEnv 7) req)).world
    let blank := fieldCall "nas /etc" "p"
    let comma := fieldCall "nas" "p,uid=0"
    (AsksMount blank ∧ FsOp.shell (mkdirLine (newMount (mountEnv 7).net blank)) ∈ ops blank ∧
      Shell.command (mkdirLine (newMount (mountEnv 7).net blank)) =
        some ["mkdir".toList, "-p".toList, "/tmp/nas".toList, "/etc_12:34:56_7".toList] ∧
      ¬ ∀ op ∈ ops blank, ReadRight (mountEnv 7).net blank op) ∧
    AsksMount comma ∧ FsOp.mount "//nas/u".toList "/tmp/nas_12:34:56_7".toList (newData (mountEnv 7).net comma) true ∈ ops comma ∧
      some ("uid".toList, "0".toList) ∈ (Joined.options ',' '=' (newData (mountEnv 7).net comma)).take 5 ∧
      ¬ ∀ op ∈ ops comma, ReadRight (mountEnv 7).net comma op := by
  intro ops blank comma
  have hline : FsOp.shell (mkdirLine (newMount (mountEnv 7).net blank)) ∈ ops blank := by decide
  have hmount : FsOp.mount "//nas/u".toList "/tmp/nas_12:34:56_7".toList (newData (mountEnv 7).net comma) true ∈ ops comma := by
    decide +kernel
  refine ⟨⟨by decide, hline, by decide, fun h => ?_⟩, by decide, hmount, by decide, fun h => ?_⟩
  · have hplain := (readRight_mkdir_iff _ _).1 (h _ hline)
    exact absurd (hplain.chars ' ' (by decide)) (by decide)
  · have hplain := (readRight_mount_iff _ _ _ _ _).1 (h _ hmount) "p,uid=0".toList (by decide)
    exact absurd hplain.1 (by decide)

end StorageAccess
