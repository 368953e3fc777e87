import StorageAccess.Lib.Runs
import StorageAccess.Model.Service
import StorageAccess.Model.UpnpDiscover
/-!
# Discovery

The flag of a scan is set first and cleared last. When the client cannot be made
the scan ends in between, and the thread waits for the flag forever. The locations
a scan leaves are read as an address and a port, which is right when the path has
no `/`.
-/

open Posix Json

namespace StorageAccess

namespace UpnpDiscover

/-! ## What a scan leaves -/

/-- The locations of the signals of one scan. -/
def announced (g : Gssdp) : List Str :=
  g.announcements.flatMap fun
    | .available usn locations => if upnpContentDir <:+: usn then locations.filter describes else []
    | .unavailable _ => []

/-- No scan is going on, and nothing is left of the one before but its devices. -/
structure Idle (d : UpnpDiscover) : Prop where
  msgType : d.mMsgType = none ∨ d.mMsgType = some "available".toList
  client : d.client = false
  browser : d.browser = false
  flag : d.mScanCompFlag = false

theorem Idle.init : Idle init := ⟨.inl rfl, rfl, rfl, rfl⟩

theorem onResourceAvailable_eq (usn : Str) (locations : List Str) (d : UpnpDiscover) :
    onResourceAvailable usn locations d =
      { d with mScannedDevs := d.mScannedDevs ++ if upnpContentDir <:+: usn then locations.filter describes else [] } := by
  unfold onResourceAvailable
  split
  case isFalse => simp
  case isTrue =>
    induction locations generalizing d with
    | nil => simp
    | cons location locations ih =>
      rw [List.foldl_cons, ih]
      by_cases hl : describes location = true <;> simp [hl, updateDeviceInfo]

/-- With the message type that is set by default, only devices that appear are noticed. -/
theorem foldl_onSignal (as : List Announcement) (d : UpnpDiscover) :
    as.foldl (onSignal "available".toList) d =
      { d with mScannedDevs := d.mScannedDevs ++ as.flatMap fun
        | .available usn locations => if upnpContentDir <:+: usn then locations.filter describes else []
        | .unavailable _ => [] } := by
  have havailable : "available".toList <+: "available".toList := List.prefix_rfl
  have hother : ¬ ("unavailable".toList <+: "available".toList ∨ "all".toList <+: "available".toList) := by decide
  induction as generalizing d with
  | nil => simp
  | cons a as ih =>
    rw [List.foldl_cons, ih]
    cases a with
    | available usn locations =>
      rw [onSignal, if_pos (.inl havailable), onResourceAvailable_eq]
      simp
    | unavailable usn =>
      rw [onSignal, if_neg hother]
      simp

/-- A scan that gets its client ends idle, with the devices that were announced. -/
theorem Idle.startScan {d : UpnpDiscover} (hd : Idle d) {g : Gssdp} (hg : g.clientError = false) :
    Idle (startScan g d) ∧ (d.startScan g).mScannedDevs = announced g := by
  have htype : "available".toList <+: "available".toList := List.prefix_rfl
  have hmsg : d.mMsgType.getD "available".toList = "available".toList := by
    rcases hd.msgType with h | h <;> rw [h]
    · rw [Option.getD_none]
    · rw [Option.getD_some]
  have hscan : d.startScan g = ⟨some "available".toList, false, false, false, announced g⟩ := by
    unfold UpnpDiscover.startScan
    simp only [hd.flag, hd.client, hg, hmsg, Bool.false_eq_true, if_false, Bool.and_false]
    rw [if_neg (fun h => h.1 htype), foldl_onSignal, List.nil_append]
    rfl
  rw [hscan]
  exact ⟨⟨.inr rfl, rfl, rfl, rfl⟩, rfl⟩

/-- A scan that does not get its client leaves the flag set. -/
theorem Idle.startScan_error {d : UpnpDiscover} (hd : Idle d) {g : Gssdp} (hg : g.clientError = true) :
    (d.startScan g).mScanCompFlag = true := by
  simp [UpnpDiscover.startScan, hd.flag, hd.client, hg]

/-- Where the flag is set, no poll clears it, however long it waits. -/
theorem getScannedDevices_of_flag {d : UpnpDiscover} (hd : d.mScanCompFlag = true) (polls : Nat) :
    d.getScannedDevices polls = none := by
  induction polls with
  | zero => rfl
  | succ polls ih => rw [getScannedDevices, if_pos hd, ih]

theorem getScannedDevices_of_idle {d : UpnpDiscover} (hd : d.mScanCompFlag = false) (polls : Nat) :
    d.getScannedDevices (polls + 1) = some d.mScannedDevs := by simp [getScannedDevices, hd]

end UpnpDiscover

/-! ## Requests one after another -/

namespace Discovery

def start (network : NetworkProvider) (world : World) : Discovery := ⟨.init, network, world, false⟩

/-- The thread takes the request, its scan leaves the flag false, and the loop ends
at once with the devices that were announced to this scan. -/
structure Scans (t : Discovery) (c : Call) : Prop where
  taken : t.waiting = false
  flag : (t.upnp.startScan c.gssdp).mScanCompFlag = false
  ends : (t.upnp.startScan c.gssdp).getScannedDevices 1 = some (UpnpDiscover.announced c.gssdp)

/-- The thread can take a request. -/
def Ready (t : Discovery) : Prop := t.upnp.Idle ∧ t.waiting = false

theorem Ready.start (network : NetworkProvider) (world : World) : Ready (start network world) := ⟨.init, rfl⟩

theorem Ready.scans_iff {t : Discovery} (ht : Ready t) (c : Call) : Scans t c ↔ c.gssdp.clientError = false := by
  constructor
  · intro h
    by_contra he
    have hflag := ht.1.startScan_error (Bool.of_not_eq_false he)
    exact absurd (h.flag.symm.trans hflag) Bool.false_ne_true
  · intro hg
    obtain ⟨hidle, hdevs⟩ := ht.1.startScan hg
    refine ⟨ht.2, hidle.flag, ?_⟩
    rw [UpnpDiscover.getScannedDevices_of_idle hidle.flag, hdevs]

theorem Ready.discover {t : Discovery} (ht : Ready t) {c : Call} (hg : c.gssdp.clientError = false) :
    Ready (t.discoverUPnPMediaServer c) := by
  obtain ⟨hidle, -⟩ := ht.1.startScan hg
  simp only [Ready, discoverUPnPMediaServer, ht.2, UpnpDiscover.getScannedDevices_of_idle hidle.flag, Bool.false_eq_true,
    if_false, and_true]
  exact hidle

/-- The thread is in the loop, and stays there. -/
theorem run_waiting {t : Discovery} (ht : t.waiting = true) (cs : List Call) :
    Runs.run discoverUPnPMediaServer t cs = t := by
  induction cs with
  | nil => rfl
  | cons c cs ih =>
    have hstep : t.discoverUPnPMediaServer c = t := if_pos ht
    rw [Runs.run_cons, hstep, ih]

/-- After an error no request is answered any more. -/
theorem Ready.error_last {t : Discovery} (ht : Ready t) {c : Call} (hg : c.gssdp.clientError = true) (cs : List Call) :
    (Runs.run discoverUPnPMediaServer t (c :: cs)).waiting = true ∧
      (Runs.run discoverUPnPMediaServer t (c :: cs)).world = t.world := by
  have hflag := ht.1.startScan_error hg
  have hstep : t.discoverUPnPMediaServer c = { t with upnp := t.upnp.startScan c.gssdp, waiting := true } := by
    simp [discoverUPnPMediaServer, ht.2, UpnpDiscover.getScannedDevices_of_flag hflag]
  rw [Runs.run_cons, hstep, run_waiting rfl]
  exact ⟨rfl, rfl⟩

theorem Ready.meets_iff {t : Discovery} (ht : Ready t) (cs : List Call) :
    Runs.Meets discoverUPnPMediaServer Scans t cs ↔ ∀ c ∈ cs, c.gssdp.clientError = false := by
  induction cs generalizing t with
  | nil => simp [Runs.Meets]
  | cons c cs ih =>
    rw [Runs.Meets, ht.scans_iff, List.forall_mem_cons]
    apply and_congr_right
    intro hg
    exact ih (ht.discover hg)

end Discovery

/-- Every scan of a sequence of requests clears the flag, so that its request is
answered and the next one scans, exactly when each scan gets its client. -/
theorem scans_end_iff (network : NetworkProvider) (world : World) (cs : List Discovery.Call) :
    Runs.Meets Discovery.discoverUPnPMediaServer Discovery.Scans (Discovery.start network world) cs ↔
      ∀ c ∈ cs, c.gssdp.clientError = false := (Discovery.Ready.start network world).meets_iff cs

namespace Discovery

def callWith (clientError : Bool) : Call :=
  ⟨⟨clientError, !clientError, true, []⟩, Net.quiet, ⟨.network, .extraMethod, .object, "guest".toList⟩⟩

end Discovery

open Discovery in
/-- The first request finds no network interface, and the second is not answered. -/
theorem scan_without_client_waits :
    let t := start NetworkProvider.init (Service.start (FS.ofEntries [] (by decide)) ∅).world
    ¬ Runs.Meets discoverUPnPMediaServer Scans t [callWith true] ∧
      (t.upnp.startScan (callWith true).gssdp).mScanCompFlag = true ∧
      (Runs.run discoverUPnPMediaServer t [callWith true, callWith false]).world.replies = [] := by
  intro t
  have ht : Ready t := .start _ _
  refine ⟨fun h => ?_, ht.1.startScan_error rfl, ?_⟩
  · exact absurd (((ht.scans_iff _).1 h.1)) (by decide)
  · rw [(ht.error_last rfl _).2]
    rfl

/-! ## What a location says -/

/-- A location of the form `http://H:P/Q` that names a description. -/
structure Location where
  host : Str
  port : Str
  path : Str
  host_ne : host ≠ []
  host_plain : ':' ∉ host ∧ '/' ∉ host
  port_ne : port ≠ []
  port_digits : ∀ c ∈ port, c.isDigit
  described : "description.xml".toList <:+: path

namespace Location

/-- What follows the two slashes. -/
def rest (l : Location) : Str := l.host ++ ':' :: (l.port ++ '/' :: l.path)

def url (l : Location) : Str := "http://".toList ++ l.rest

theorem describes (l : Location) : UpnpDiscover.describes l.url = true := by
  have hrest : l.rest = (l.host ++ ':' :: (l.port ++ ['/'])) ++ l.path := by simp [rest]
  have hpath : l.path <:+ l.rest := by
    rw [hrest]
    exact List.suffix_append _ _
  exact decide_eq_true (l.described.trans (hpath.trans (List.suffix_append _ _)).isInfix)

end Location

namespace NetworkProvider

theorem dirPart_append_slash (s t : Str) : dirPart (s ++ '/' :: t) = s ++ '/' :: dirPart t := by
  unfold dirPart
  induction t using List.reverseRecOn with
  | nil => exact List.rdropWhile_concat_neg _ _ _ (by simp)
  | append_singleton t c ih =>
    rw [← List.cons_append, ← List.append_assoc]
    by_cases hc : c = '/'
    · rw [List.rdropWhile_concat_neg _ _ _ (by simp [hc]), List.rdropWhile_concat_neg _ _ _ (by simp [hc])]
      simp
    · rw [List.rdropWhile_concat_pos _ _ _ (by simp [hc]), List.rdropWhile_concat_pos _ _ _ (by simp [hc]), ih]

/-- The last `/` is in the second part if there is one in it. -/
theorem beforeLastSlash_append (s t : Str) :
    beforeLastSlash (s ++ '/' :: t) = if '/' ∈ t then s ++ '/' :: beforeLastSlash t else s := by
  have hmem : '/' ∈ s ++ '/' :: t := by simp
  rw [beforeLastSlash, if_pos hmem, dirPart_append_slash]
  by_cases ht : '/' ∈ t
  · have hdir : dirPart t ≠ [] := fun h => by simpa using List.rdropWhile_eq_nil_iff.1 h _ ht
    rw [if_pos ht, beforeLastSlash, if_pos ht, List.dropLast_append_of_ne_nil (by simp), List.dropLast_cons_of_ne_nil hdir]
  · have hdir : dirPart t = [] := List.rdropWhile_eq_nil_iff.2 fun c hc => by
      simpa using ne_of_mem_of_not_mem hc ht
    rw [if_neg ht, hdir, List.dropLast_concat]

theorem find_slashes (rest : Str) : find "//".toList ("http://".toList ++ rest) = some 5 := by
  have hscheme : "http://".toList = ['h', 't', 't', 'p', ':', '/', '/'] := rfl
  have hslashes : "//".toList = ['/', '/'] := rfl
  simp [hscheme, hslashes, find, List.findIdx?_cons]

theorem takeWhile_ne_append {c : Char} {s : Str} (hs : c ∉ s) (t : Str) : (s ++ c :: t).takeWhile (· ≠ c) = s := by
  rw [List.takeWhile_append_of_pos fun a ha => by simpa using ne_of_mem_of_not_mem ha hs]
  simp

theorem dropWhile_ne_append {c : Char} {s : Str} (hs : c ∉ s) (t : Str) : (s ++ c :: t).dropWhile (· ≠ c) = c :: t := by
  rw [List.dropWhile_append_of_pos fun a ha => by simpa using ne_of_mem_of_not_mem ha hs]
  simp

/-- The address ends at the first `:`, and the port at the last `/`. -/
theorem parseMediaServer_url (l : Location) :
    parseMediaServer l.url =
      (l.host, if '/' ∈ l.path then l.port ++ '/' :: beforeLastSlash l.path else l.port) := by
  have hfind : find "//".toList l.url = some 5 := find_slashes l.rest
  have htemp : l.url.drop (5 + 2) = l.rest := List.drop_left' rfl
  have hcolon : beforeLastSlash l.rest =
      l.host ++ ':' :: if '/' ∈ l.path then l.port ++ '/' :: beforeLastSlash l.path else l.port := by
    have hrest : l.rest = (l.host ++ ':' :: l.port) ++ '/' :: l.path := by simp [Location.rest]
    rw [hrest, beforeLastSlash_append]
    split <;> simp
  unfold parseMediaServer
  rw [hfind]
  dsimp only
  rw [htemp, hcolon, if_pos (by simp), dropWhile_ne_append l.host_plain.1, Location.rest,
    takeWhile_ne_append l.host_plain.1]
  rfl

end NetworkProvider

open NetworkProvider in
/-- A location that a scan keeps is read as its host and its port exactly when its
path holds no `/`. -/
theorem location_parsed_iff (l : Location) :
    UpnpDiscover.describes l.url = true ∧
      ((((mediaObject l.url).get "ip").asString = l.host ∧ ((mediaObject l.url).get "port").asString = l.port) ↔
        '/' ∉ l.path) := by
  have hip : ((mediaObject l.url).get "ip").asString = (parseMediaServer l.url).1 := rfl
  have hport : ((mediaObject l.url).get "port").asString = (parseMediaServer l.url).2 := rfl
  refine ⟨l.describes, ?_⟩
  rw [hip, hport]
  rw [parseMediaServer_url]
  by_cases hl : '/' ∈ l.path
  · simp [hl]
  · simp [hl]

/-- A server that keeps its description in a directory. -/
def deepLocation : Location where
  host := "10.0.0.2".toList
  port := "8200".toList
  path := "dev/description.xml".toList
  host_ne := by decide
  host_plain := by decide
  port_ne := by decide
  port_digits := List.all_eq_true.1 rfl
  described := by decide

/-- The directory becomes part of the port. -/
theorem deepLocation_misread :
    deepLocation.url = "http://10.0.0.2:8200/dev/description.xml".toList ∧
      UpnpDiscover.describes deepLocation.url = true ∧
      ((NetworkProvider.mediaObject deepLocation.url).get "port").asString = "8200/dev".toList ∧
      ((NetworkProvider.mediaObject deepLocation.url).get "port").asString ≠ deepLocation.port := by
  refine ⟨rfl, deepLocation.describes, ?_, ?_⟩ <;> decide +kernel

end StorageAccess
