import StorageAccess.Lib.Runs
import StorageAccess.Model.CurlClient
import StorageAccess.Proofs.FolderMap
/-!
# What the HTTP client reads

However libcurl cuts a body and its headers into pieces, the client reads the whole
of each, up to the first NUL. Between requests it clears neither: a request that
fails leaves the response of the last one that did not, and the headers pile up.
-/

open Posix

namespace StorageAccess.CurlClient

/-! ## The buffers -/

/-- The text of the pieces of the body, or of the headers. -/
def text (body : Bool) (arrivals : List Arrival) : Str := (arrivals.filter (·.body = body)).flatMap (·.contents)

/-- A chunk that was filled with a text. -/
def filled (t : Str) : MemoryChunk := ⟨some (t.map some ++ [some nul]), t.length⟩

/-- The text a chunk holds so far, which may not be closed by a NUL yet. -/
structure Holds (mem : MemoryChunk) (t : Str) : Prop where
  size : mem.size = t.length
  bytes : (mem.memory.getD (List.replicate mem.size none)).take mem.size = t.map some

theorem holds_init (room : Bool) : Holds (.init room) [] := ⟨rfl, by simp [MemoryChunk.init]⟩

theorem holds_filled (t : Str) : Holds (filled t) t := ⟨rfl, by simp [filled]⟩

theorem writeCallback_eq {a : Arrival} {mem : MemoryChunk} {t : Str} (h : Holds mem t) (ha : a.room = true) :
    writeCallback a mem = (filled (t ++ a.contents), a.contents.length) := by
  rw [writeCallback, if_pos ha, h.bytes, h.size]
  simp [filled]

/-- What a chunk is after some pieces: as it was if there were none. -/
def after (mem : MemoryChunk) (t : Str) (body : Bool) (arrivals : List Arrival) : MemoryChunk :=
  if arrivals.any (·.body = body) then filled (t ++ text body arrivals) else mem

theorem after_cons {a : Arrival} {body : Bool} (h : a.body = body) (mem : MemoryChunk) (t : Str) (as : List Arrival) :
    after (filled (t ++ a.contents)) (t ++ a.contents) body as = after mem t body (a :: as) := by
  have htext : text body (a :: as) = a.contents ++ text body as := by simp [text, h]
  rw [after, after, List.any_cons, decide_eq_true h, Bool.true_or, if_pos rfl, htext, List.append_assoc]
  split
  case isTrue => rfl
  case isFalse hnone =>
    have hempty : text body as = [] := by
      rw [text, List.filter_eq_nil_iff.2 fun a' ha' => ?_]
      · rfl
      · intro hb
        exact hnone (List.any_eq_true.2 ⟨a', ha', hb⟩)
    rw [hempty, List.append_nil]

theorem after_cons_other {a : Arrival} {body : Bool} (h : a.body ≠ body) (mem : MemoryChunk) (t : Str)
    (as : List Arrival) : after mem t body (a :: as) = after mem t body as := by
  simp [after, text, h]

/-- With room for every piece both chunks are filled, whatever the order of the pieces. -/
theorem receive_eq {arrivals : List Arrival} (hroom : ∀ a ∈ arrivals, a.room = true) {b : Buffers} {t t' : Str}
    (hbody : Holds b.rsp_body t) (hheader : Holds b.rsp_header t') :
    receive arrivals b = (⟨after b.rsp_body t true arrivals, after b.rsp_header t' false arrivals⟩, true) := by
  induction arrivals generalizing b t t' with
  | nil => rfl
  | cons a as ih =>
    have ha := hroom a List.mem_cons_self
    have has := fun a' h => hroom a' (List.mem_cons_of_mem a h)
    rw [receive]
    cases hk : a.body with
    | true =>
      have hrest := ih has (b := ⟨filled (t ++ a.contents), b.rsp_header⟩) (holds_filled _) hheader
      rw [after_cons hk b.rsp_body] at hrest
      rw [after_cons_other (show a.body ≠ false by simp [hk])]
      simpa only [if_true, writeCallback_eq hbody ha] using hrest
    | false =>
      have hrest := ih has (b := ⟨b.rsp_body, filled (t' ++ a.contents)⟩) hbody (holds_filled _)
      rw [after_cons hk b.rsp_header] at hrest
      rw [after_cons_other (show a.body ≠ true by simp [hk])]
      simpa only [Bool.false_eq_true, if_false, writeCallback_eq hheader ha, if_true] using hrest

/-- The transfer ends early exactly where a piece that is not empty finds no room. -/
theorem receive_taken (arrivals : List Arrival) (b : Buffers) :
    (receive arrivals b).2 = arrivals.all fun a => a.room || a.contents.isEmpty := by
  induction arrivals generalizing b with
  | nil => rfl
  | cons a as ih =>
    rw [receive, List.all_cons]
    cases hr : a.room with
    | true => simp [writeCallback, hr, ih]
    | false =>
      cases hc : a.contents with
      | nil => simp [writeCallback, hr, ih]
      | cons c cs => simp [writeCallback, hr]

theorem cString_closed (t : Str) : cString (t.map some ++ [some nul]) = some (cStr t) := by
  induction t with
  | nil => rfl
  | cons c t ih =>
    rw [List.map_cons, List.cons_append, cString, cStr, List.takeWhile_cons]
    by_cases hc : c = nul
    · simp [hc]
    · rw [if_neg hc, if_pos (by simpa using hc), ih]
      rfl

/-! ## The lines of the headers -/

/-- A text cut at its line ends. -/
structure Lines (s : Str) (lines : List Str) : Prop where
  cut : ∃ rest, s = lines.flatMap (· ++ crlf) ++ rest ∧ ¬ crlf <:+: rest
  lines : ∀ l ∈ lines, ¬ crlf <:+: l

theorem crlf_eq : crlf = ['\r', '\n'] := rfl

/-- Behind a text without a line end the next one is found at its end. -/
theorem find_crlf {l : Str} (hl : ¬ crlf <:+: l) (rest : Str) : find crlf (l ++ (crlf ++ rest)) = some l.length := by
  refine find_eq_some_iff.2 ⟨l, rest, rfl, rfl, fun m hm => ?_⟩
  rintro ⟨v, hv⟩
  rw [List.drop_append_of_le_length (by omega)] at hv
  obtain ⟨a, b, rfl, rfl⟩ : ∃ a b, l = a ++ b ∧ a.length = m := ⟨l.take m, l.drop m, by simp, by simp; omega⟩
  rw [List.drop_left, crlf_eq] at hv
  rcases b with _ | ⟨x, _ | ⟨y, b⟩⟩
  · simp at hm
  · simp at hv
  · simp only [List.cons_append, List.nil_append, List.cons.injEq] at hv
    obtain ⟨rfl, rfl, -⟩ := hv
    exact hl ⟨a, b, by simp [crlf_eq]⟩

theorem find_crlf_none {s : Str} (hs : ¬ crlf <:+: s) : find crlf s = none := by
  cases hf : find crlf s with
  | none => rfl
  | some n =>
    obtain ⟨u, v, rfl, -, -⟩ := find_eq_some_iff.1 hf
    exact absurd ⟨u, v, by simp⟩ hs

/-- The loop adds the lines of a text to what it has. -/
theorem headerLoop_lines {s : Str} {lines : List Str} (h : Lines s lines) (headers : List Str) :
    headerLoop s headers = headers ++ lines := by
  obtain ⟨⟨rest, rfl, hrest⟩, hlines⟩ := h
  induction lines generalizing headers with
  | nil =>
    rw [List.flatMap_nil, List.nil_append, headerLoop, find_crlf_none hrest, List.append_nil]
  | cons l lines ih =>
    have hcut : (l :: lines).flatMap (· ++ crlf) ++ rest = l ++ (crlf ++ (lines.flatMap (· ++ crlf) ++ rest)) := by simp
    have hlen : crlf.length = 2 := rfl
    rw [hcut, headerLoop, find_crlf (hlines l List.mem_cons_self)]
    dsimp only
    rw [dif_pos (by simp [hlen]), List.take_left, ← List.append_assoc, ← hlen, ← List.length_append, List.drop_left,
      ih _ fun l' hl' => hlines l' (List.mem_cons_of_mem l hl')]
    simp

/-- Every text can be cut at its line ends. -/
theorem exists_lines (s : Str) : ∃ lines, Lines s lines := by
  induction hn : s.length using Nat.strong_induction_on generalizing s with
  | _ n ih =>
  cases hf : find crlf s with
  | none =>
    refine ⟨[], ⟨s, rfl, fun hin => ?_⟩, by simp⟩
    obtain ⟨t, hpre, hsuf⟩ := List.infix_iff_prefix_suffix.1 hin
    have hnot := List.findIdx?_eq_none_iff.1 hf t ((List.mem_tails t s).2 hsuf)
    rw [List.isPrefixOf_iff_prefix.2 hpre] at hnot
    cases hnot
  | some k =>
    obtain ⟨u, v, rfl, rfl, hfirst⟩ := find_eq_some_iff.1 hf
    obtain ⟨lines, ⟨rest, hv, hrest⟩, hlines⟩ := ih v.length (by rw [← hn]; simp [crlf_eq]; omega) v rfl
    refine ⟨u :: lines, ⟨rest, by simp [hv], hrest⟩, ?_⟩
    rintro l hl ⟨a, b, hin⟩
    rcases List.mem_cons.1 hl with rfl | hl
    · refine hfirst a.length (by rw [← hin]; simp [crlf_eq]) ⟨b ++ (crlf ++ v), ?_⟩
      rw [← hin, List.append_assoc, List.append_assoc, List.drop_left]
    · exact hlines l hl ⟨a, b, hin⟩

theorem lines_headerLoop (s : Str) : Lines s (headerLoop s []) := by
  obtain ⟨lines, h⟩ := exists_lines s
  rwa [headerLoop_lines h, List.nil_append]

/-! ## Requests -/

/-- libcurl performs the request, and no callback takes less than it got. -/
def Exchange.through (e : Exchange) (requestHeaders : List Str) : Bool :=
  e.handle && !e.refuses requestHeaders && (e.arrivals.all fun a => a.room || a.contents.isEmpty) && e.ok

/-- There was memory for every piece, and there was one of the body and one of the headers. -/
structure Exchange.Whole (e : Exchange) : Prop where
  room : ∀ a ∈ e.arrivals, a.room = true
  body : ∃ a ∈ e.arrivals, a.body = true
  headers : ∃ a ∈ e.arrivals, a.body = false

/-- What the client reads of an exchange. -/
def Exchange.response (e : Exchange) : Str := cStr (text true e.arrivals)

def Exchange.headerText (e : Exchange) : Str := cStr (text false e.arrivals)

/-- A request that does not go through is answered with an error, and what was read before stays. -/
theorem send_failed {curl : Curl} {c : CurlClient} (h : (curl c.options).through c.m_requestHeaders = false) :
    ∃ r, r ≠ .ok ∧ c.send curl = some (r, { c with m_lastResponseCode := invalidResponseCode }) := by
  unfold Exchange.through at h
  unfold send
  cases hh : (curl c.options).handle with
  | false => exact ⟨.internalError, by decide, by simp [hh]⟩
  | true =>
    cases hr : (curl c.options).refuses c.m_requestHeaders with
    | true => exact ⟨.outOfMemory, by decide, by simp [hh, hr]⟩
    | false =>
      refine ⟨.networkError, by decide, ?_⟩
      have htaken := receive_taken (curl c.options).arrivals
        ⟨.init (curl c.options).bodyRoom, .init (curl c.options).headerRoom⟩
      rw [hh, hr, ← htaken] at h
      simp only [Bool.not_false, Bool.true_and] at h
      simp [hh, hr, h]

theorem after_init {as : List Arrival} {body : Bool} (h : ∃ a ∈ as, a.body = body) (room : Bool) :
    (after (.init room) [] body as).memory = some ((text body as).map some ++ [some nul]) := by
  obtain ⟨a, ha, hb⟩ := h
  rw [after, if_pos (List.any_eq_true.2 ⟨a, ha, decide_eq_true hb⟩)]
  rfl

/-- One that does is read whole. -/
theorem send_through {curl : Curl} {c : CurlClient} (h : (curl c.options).through c.m_requestHeaders = true)
    (hw : (curl c.options).Whole) :
    c.send curl = some (.ok, { c with
      m_lastResponseCode := (curl c.options).responseCode.getD invalidResponseCode
      m_response := (curl c.options).response
      m_outHeaders := headerLoop (curl c.options).headerText c.m_outHeaders }) := by
  simp only [Exchange.through, Bool.and_eq_true, Bool.not_eq_true'] at h
  obtain ⟨⟨⟨hh, hr⟩, -⟩, hok⟩ := h
  have hreceived := receive_eq hw.room
    (b := ⟨.init (curl c.options).bodyRoom, .init (curl c.options).headerRoom⟩) (holds_init _) (holds_init _)
  unfold send
  simp only [hh, hr, hok, hreceived, Bool.not_true, Bool.false_eq_true, if_false, Bool.and_true, after_init hw.body,
    after_init hw.headers, cString_closed, decomposeHeader]
  rfl

/-- A client that was set up for one request answers with the body, if the request goes through. -/
theorem answer_eq {curl : Curl} {r : CurlRequest}
    (hw : (curl (forRequest r).options).through r.requestHeaders = true → (curl (forRequest r).options).Whole) :
    answer curl r = if (curl (forRequest r).options).through r.requestHeaders then
      some (curl (forRequest r).options).response else none := by
  by_cases h : (curl (forRequest r).options).through r.requestHeaders = true
  · rw [if_pos h, answer, send_through (c := forRequest r) h (hw h)]
  · obtain ⟨r', hr, hsend⟩ := send_failed (c := forRequest r) (Bool.eq_false_iff.2 h)
    rw [if_neg h, answer, hsend]
    cases r' with
    | ok => exact absurd rfl hr
    | internalError | outOfMemory | networkError => rfl

/-- Two libraries that hand over the same bodies, in pieces of their own. -/
structure SameBodies (curl curl' : Curl) : Prop where
  through : ∀ r : CurlRequest, (curl (forRequest r).options).through r.requestHeaders =
    (curl' (forRequest r).options).through r.requestHeaders
  whole : ∀ r : CurlRequest, (curl (forRequest r).options).through r.requestHeaders = true →
    (curl (forRequest r).options).Whole ∧ (curl' (forRequest r).options).Whole
  bodies : ∀ options, text true (curl options).arrivals = text true (curl' options).arrivals

/-- What the content directory code finds does not depend on the pieces. -/
theorem web_eq_of_sameBodies {curl curl' : Curl} (h : SameBodies curl curl') (xmlReadDoc : Str → Xml.Tree) :
    web curl xmlReadDoc = web curl' xmlReadDoc := by
  unfold web
  congr 1
  funext r
  rw [answer_eq fun ht => (h.whole r ht).1, answer_eq fun ht => (h.whole r ((h.through r).trans ht)).2, h.through r,
    Exchange.response, Exchange.response, h.bodies]

/-! ## A client over all its calls -/

/-- A call on a client whose calls so far had results. -/
def call (c : Option CurlClient) (a : Action) : Option CurlClient := c.bind (step · a)

theorem call_send {curl : Curl} {c c' : CurlClient} {r : MpmResult} (h : c.send curl = some (r, c')) :
    call (some c) (.send curl) = some c' := congrArg (Option.map Prod.snd) h

/-- The exchange of a request that goes through. -/
def exchanged (c : Option CurlClient) (a : Action) : List Exchange :=
  match c, a with
  | some c, .send curl => if (curl c.options).through c.m_requestHeaders then [curl c.options] else []
  | _, _ => []

/-- The response and the headers a client has after some exchanges, if it had those of `c` before. -/
structure HasRead (c : CurlClient) (exchanges : List Exchange) (c' : CurlClient) : Prop where
  response : c'.m_response = (exchanges.map Exchange.response).getLastD c.m_response
  headers : ∃ lines : Exchange → List Str, (∀ e, Lines e.headerText (lines e)) ∧
    c'.m_outHeaders = c.m_outHeaders ++ exchanges.flatMap lines

theorem hasRead_refl (c : CurlClient) : HasRead c [] c :=
  ⟨rfl, fun e => headerLoop e.headerText [], fun _ => lines_headerLoop _, by simp⟩

/-- Nothing but a request that goes through changes the response or the headers. -/
theorem HasRead.same {c c₁ c₂ : CurlClient} {exchanges : List Exchange} (h : HasRead c exchanges c₁)
    (hresponse : c₂.m_response = c₁.m_response) (hheaders : c₂.m_outHeaders = c₁.m_outHeaders) :
    HasRead c exchanges c₂ := by
  obtain ⟨lines, hlines, hbefore⟩ := h.headers
  exact ⟨hresponse.trans h.response, lines, hlines, hheaders.trans hbefore⟩

theorem HasRead.snoc {c c₁ c₂ : CurlClient} {exchanges : List Exchange} {e : Exchange} (h : HasRead c exchanges c₁)
    (hresponse : c₂.m_response = e.response) (hheaders : c₂.m_outHeaders = headerLoop e.headerText c₁.m_outHeaders) :
    HasRead c (exchanges ++ [e]) c₂ := by
  obtain ⟨lines, hlines, hbefore⟩ := h.headers
  refine ⟨by simp [hresponse], lines, hlines, ?_⟩
  rw [hheaders, headerLoop_lines (hlines e), hbefore, List.flatMap_append, List.append_assoc]
  simp

theorem hasRead_call {c c₁ : CurlClient} {exchanges : List Exchange} (h : HasRead c exchanges c₁) (a : Action)
    (hw : ∀ e ∈ exchanged (some c₁) a, e.Whole) :
    ∃ c₂, call (some c₁) a = some c₂ ∧ HasRead c (exchanges ++ exchanged (some c₁) a) c₂ := by
  cases a with
  | send curl =>
    unfold exchanged at hw ⊢
    dsimp only at hw ⊢
    split
    case isTrue ht =>
      rw [if_pos ht] at hw
      have hsend := send_through ht (hw _ List.mem_cons_self)
      exact ⟨_, call_send hsend, h.snoc rfl rfl⟩
    case isFalse hf =>
      obtain ⟨r, -, hsend⟩ := send_failed (c := c₁) (by simpa using hf)
      rw [List.append_nil]
      exact ⟨_, call_send hsend, h.same rfl rfl⟩
  | setRequestHeaders | addRequestHeader | setUserName | setMethodType | setURL | setUpnpXmlData | setRequestBody
  | setUseSSLOption =>
    simp only [exchanged, List.append_nil]
    exact ⟨_, rfl, h.same rfl rfl⟩

/-- Over every sequence of calls whose requests that go through are read whole: the
response is the body of the last of them, however it was cut, and the headers are the
lines of all of them, one after another. -/
theorem client_reads_whole (c : CurlClient) (calls : List Action)
    (hw : Runs.Meets call (fun c a => ∀ e ∈ exchanged c a, e.Whole) (some c) calls) :
    ∃ c', Runs.run call (some c) calls = some c' ∧ HasRead c (Runs.logged call exchanged (some c) calls) c' := by
  let Inv (s : Option CurlClient) (exchanges : List Exchange) : Prop := ∃ c', s = some c' ∧ HasRead c exchanges c'
  have hstart : Inv (some c) [] := ⟨c, rfl, hasRead_refl c⟩
  refine Runs.inv_logged (fun s exchanges a (hs : Inv s exchanges) hok => ?_) hstart hw
  obtain ⟨c₁, rfl, h⟩ := hs
  exact hasRead_call h a hok

theorem mem_exchanged {c : Option CurlClient} {e e' : Exchange} (h : e ∈ exchanged c (.send fun _ => e')) :
    e = e' ∧ ∃ requestHeaders, e'.through requestHeaders = true := by
  cases c with
  | none => cases h
  | some c =>
    simp only [exchanged] at h
    split at h
    case isTrue ht => exact ⟨List.mem_singleton.1 h, _, ht⟩
    case isFalse => cases h

/-- A page in two pieces, with a header line before each. -/
def inPieces : Exchange where
  handle := true
  refusedHeader := none
  bodyRoom := true
  headerRoom := true
  arrivals := [⟨false, "a: b\r\n".toList, true⟩, ⟨true, "<x".toList, true⟩, ⟨false, "c: d\r\n".toList, true⟩,
    ⟨true, "/>".toList, true⟩]
  ok := true
  responseCode := some 200

theorem inPieces_whole : inPieces.Whole := ⟨by decide, by decide, by decide⟩

/-- A request whose transfer breaks off behind one that was read in pieces. -/
def pageThenNothing : List Action := [.send fun _ => inPieces, .send fun _ => { inPieces with ok := false }]

theorem page_stays :
    ∃ c', Runs.run call (some CurlClient.init) pageThenNothing = some c' ∧
      HasRead .init (Runs.logged call exchanged (some CurlClient.init) pageThenNothing) c' := by
  refine client_reads_whole .init pageThenNothing ⟨fun e he => ?_, fun e he => ?_, trivial⟩
  · obtain ⟨rfl, -⟩ := mem_exchanged he
    exact inPieces_whole
  · obtain ⟨-, requestHeaders, ht⟩ := mem_exchanged he
    simp [Exchange.through] at ht

end StorageAccess.CurlClient
