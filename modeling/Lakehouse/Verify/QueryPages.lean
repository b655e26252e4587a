import Lakehouse.Release.SmokeCheck

/-!
# The pages of a result

Trino as the smoke check meets it: the result of every statement is a chain of pages, each linking
the next, and the requests for a follow-up page are answered in any way. `run_query` returns the
rows of all pages, in their order, exactly when the chain is delivered, and raises otherwise
(`runQuery_exact`).
-/

namespace Lakehouse.Verify

open Lib Release.SmokeCheck

/-! ## Chains of pages -/

/-- The reply to a request for a page of a chain. -/
inductive Reply where
  | served
  | httpError (code : Nat)
  | requestFailed (reason : String)
deriving DecidableEq

/-- What the client sees of a reply. -/
def Reply.answer (page : Page) : Reply → Answer
  | .served => .page page
  | .httpError code => .httpError code
  | .requestFailed reason => .requestFailed reason

/-- A page after the first, and what its requests come to. -/
structure FollowUp where
  page : Page
  /-- The replies to the requests for the page, in their order. -/
  replies : Nat → Reply

/-- Every page but the last links the next. -/
def Linked : Page → List FollowUp → Prop
  | page, [] => page.next = none
  | page, f :: rest => page.next.isSome ∧ Linked f.page rest

/-- The result of a statement. -/
structure Chain where
  /-- The reply to the POST. -/
  opening : Reply
  first : Page
  followUps : List FollowUp
  linked : Linked first followUps

/-- The pages of a chain. -/
def Chain.pages (c : Chain) : List Page := c.first :: c.followUps.map (·.page)

/-- The data of all pages. -/
def Chain.rows (c : Chain) : List Row := c.pages.flatMap Page.rows

/-- The page is served within ten tries, after nothing but 503. -/
def FollowUp.Served (f : FollowUp) : Prop :=
  ∃ n < 10, f.replies n = .served ∧ ∀ m < n, f.replies m = .httpError 503

/-- The whole result is sent, and no page reports an error. -/
structure Chain.Delivered (c : Chain) : Prop where
  opened : c.opening = .served
  sound : ∀ page ∈ c.pages, truthy page.error = false
  served : ∀ f ∈ c.followUps, f.Served

/-! ## The server -/

/-- What a server has been asked and has sent. -/
structure Session where
  /-- The statements so far. -/
  posts : List String
  /-- The pages of the last statement that were sent, in their order. -/
  sent : List Page
  /-- Its pages that were not. -/
  pending : List FollowUp
  /-- The number of requests for each follow-up page that was sent. -/
  counts : List Nat
  /-- The number of requests for the page that is next. -/
  tried : Nat
  /-- The requests for anything else. -/
  stray : Nat

/-- The number of requests for each follow-up page that was sent, and for the one that is next. -/
def Session.requests (s : Session) : List Nat := s.counts ++ [s.tried]

/-- The link in the last page that was sent. -/
def Session.link (s : Session) : Option String := s.sent.getLast?.bind Page.next

/-- The next page is sent. -/
def Session.serve (s : Session) (f : FollowUp) (rest : List FollowUp) : Session :=
  { s with
    sent := s.sent ++ [f.page]
    pending := rest
    counts := s.counts ++ [s.tried + 1]
    tried := 0 }

/-- The next statement is posted. -/
def Session.submit (s : Session) (sql : String) (sent : List Page) (pending : List FollowUp) :
    Session :=
  { s with posts := s.posts ++ [sql], sent := sent, pending := pending, counts := [], tried := 0 }

/-- A statement starts the chain of its result. -/
def Session.post (results : Nat → Chain) (sql : String) (s : Session) : Answer × Session :=
  let c := results s.posts.length
  (c.opening.answer c.first,
    if c.opening = .served then s.submit sql [c.first] c.followUps else s.submit sql [] [])

/-- Only the link in the last page that was sent is known. -/
def Session.get (nextUri : String) (s : Session) : Answer × Session :=
  match s.pending with
  | [] => (.httpError 404, { s with stray := s.stray + 1 })
  | f :: rest =>
    if s.link = some nextUri then
      let reply := f.replies s.tried
      (reply.answer f.page,
        if reply = .served then s.serve f rest else { s with tried := s.tried + 1 })
    else (.httpError 404, { s with stray := s.stray + 1 })

/-- A Trino whose `n`-th statement has the given result. -/
def service (results : Nat → Chain) : Trino Session where
  post := Session.post results
  get := Session.get

/-! ## One follow-up page -/

section FollowUpPage

variable {results : Nat → Chain} {nextUri : String} {s : Session} {f : FollowUp}
  {rest : List FollowUp}

theorem get_next (hpending : s.pending = f :: rest) (hlink : s.link = some nextUri) :
    (service results).get nextUri s =
      ((f.replies s.tried).answer f.page,
        if f.replies s.tried = .served then s.serve f rest
        else { s with tried := s.tried + 1 }) := by
  simp only [service, Session.get, hpending, hlink, if_true]

theorem openUrl_waits (hpending : s.pending = f :: rest) (hlink : s.link = some nextUri)
    {attempt : Nat} (hattempt : attempt ≠ 9) (hreply : f.replies s.tried = .httpError 503) :
    openUrl (service results) nextUri attempt s =
      some (none, { s with tried := s.tried + 1 }) := by
  simp [openUrl, get_next hpending hlink, hreply, Reply.answer, hattempt]

theorem openUrl_served (hpending : s.pending = f :: rest) (hlink : s.link = some nextUri)
    (attempt : Nat) (hreply : f.replies s.tried = .served) :
    openUrl (service results) nextUri attempt s =
      some (some (.ok f.page), s.serve f rest) := by
  simp [openUrl, get_next hpending hlink, hreply, Reply.answer]

theorem openUrl_raises (hpending : s.pending = f :: rest) (hlink : s.link = some nextUri)
    {attempt : Nat} (hreply : f.replies s.tried ≠ .served)
    (hlast : f.replies s.tried ≠ .httpError 503 ∨ attempt = 9) :
    ∃ exc, openUrl (service results) nextUri attempt s =
      some (some (.error exc), { s with tried := s.tried + 1 }) := by
  unfold openUrl
  rw [get_next hpending hlink, if_neg hreply]
  cases hr : f.replies s.tried with
  | served => exact absurd hr hreply
  | httpError code =>
    have hcode : code ≠ 503 ∨ attempt = 9 := by
      rwa [hr, Ne, Reply.httpError.injEq] at hlast
    exact ⟨.httpError code, if_pos hcode⟩
  | requestFailed reason => exact ⟨.requestFailed reason, rfl⟩

/-- The loop ends in the first attempt that is not answered by 503, or in the tenth. -/
theorem served_iff {k : Nat} (hk : k < 10) (hlast : f.replies k ≠ .httpError 503 ∨ k = 9)
    (hwaits : ∀ m < k, f.replies m = .httpError 503) :
    f.Served ↔ f.replies k = .served := by
  constructor
  · rintro ⟨n, hn, hserved, hbefore⟩
    rcases Nat.lt_trichotomy n k with hlt | rfl | hgt
    · rw [hwaits n hlt] at hserved
      cases hserved
    · exact hserved
    · -- the loop ends before the try that is served: it was not 503, or there is no try left
      rcases hlast with hne | rfl
      · exact absurd (hbefore k hgt) hne
      · omega
  · intro hserved
    exact ⟨k, hk, hserved, hwaits⟩

variable (results) in
/-- What the loop over the attempts does for a page that is next: it gets the page where it is
served, and raises where it is not, after at most ten requests. -/
theorem attempts_followUp (hpending : s.pending = f :: rest) (hlink : s.link = some nextUri)
    (htried : s.tried = 0) :
    ∃ k < 10,
      (f.Served ∧ attempts (openUrl (service results) nextUri) (List.range 10) s =
        some (some (.ok f.page), { s with tried := k }.serve f rest)) ∨
      (¬ f.Served ∧ ∃ exc, attempts (openUrl (service results) nextUri) (List.range 10) s =
        some (some (.error exc), { s with tried := k + 1 })) := by
  obtain ⟨k, hk, hlast, hbefore⟩ := exists_leaving (fun n => f.replies n ≠ .httpError 503) 9
  have hwaits : ∀ m < k, f.replies m = .httpError 503 := fun m hm => not_not.1 (hbefore m hm).1
  let st : Nat → Session := fun m => { s with tried := m }
  have hstart : s = st 0 := by rw [← htried]
  have hpass : ∀ m < k, openUrl (service results) nextUri m (st m) = some (none, st (m + 1)) :=
    fun m hm => openUrl_waits (s := st m) hpending hlink (hbefore m hm).2 (hwaits m hm)
  refine ⟨k, hk, ?_⟩
  by_cases hserved : f.replies k = .served
  · left
    refine ⟨(served_iff hk hlast hwaits).2 hserved, ?_⟩
    have hleave : openUrl (service results) nextUri k (st k) =
        some (some (.ok f.page), (st k).serve f rest) :=
      openUrl_served (s := st k) hpending hlink k hserved
    rw [hstart]
    exact attempts_leaves hk hpass hleave
  · right
    refine ⟨fun h => hserved ((served_iff hk hlast hwaits).1 h), ?_⟩
    obtain ⟨exc, hleave⟩ : ∃ exc, openUrl (service results) nextUri k (st k) =
        some (some (.error exc), st (k + 1)) :=
      openUrl_raises (s := st k) hpending hlink hserved hlast
    refine ⟨exc, ?_⟩
    rw [hstart]
    exact attempts_leaves hk hpass hleave

end FollowUpPage

/-! ## The loop over the pages -/

/-- The page and those after it are without an error, and those after it are served. -/
structure Arrives (page : Page) (rest : List FollowUp) : Prop where
  sound : truthy page.error = false
  rest : ∀ f ∈ rest, f.Served ∧ truthy f.page.error = false

theorem arrives_cons {page : Page} {f : FollowUp} {rest : List FollowUp} :
    Arrives page (f :: rest) ↔ truthy page.error = false ∧ f.Served ∧ Arrives f.page rest := by
  constructor
  · rintro ⟨hsound, hrest⟩
    obtain ⟨⟨hserved, hfirst⟩, hrest⟩ := List.forall_mem_cons.1 hrest
    exact ⟨hsound, hserved, hfirst, hrest⟩
  · rintro ⟨hsound, hserved, hfirst, hrest⟩
    exact ⟨hsound, List.forall_mem_cons.2 ⟨⟨hserved, hfirst⟩, hrest⟩⟩

/-- What the loop does from a page on: its result, and the session after it. -/
structure PagesRun (page : Page) (rest : List FollowUp) (rows : List Row) (s : Session)
    (r : Except Exc (List Row)) (s' : Session) : Prop where
  posts : s'.posts = s.posts
  stray : s'.stray = s.stray
  sent : s'.sent <+: s.sent ++ rest.map (·.page)
  requests : ∀ n ∈ s'.requests, n ≤ 10
  returns : Arrives page rest →
    r = .ok (rows ++ page.rows ++ rest.flatMap (·.page.rows)) ∧
      s'.sent = s.sent ++ rest.map (·.page)
  raises : ¬ Arrives page rest → ∃ exc, r = .error exc

section Pages

variable {results : Nat → Chain} {page : Page} {rest : List FollowUp} {rows : List Row}
  {s : Session}

theorem PagesRun.of_raise {s' : Session} {exc : Exc} (h : ¬ Arrives page rest)
    (hposts : s'.posts = s.posts) (hstray : s'.stray = s.stray) (hsent : s'.sent = s.sent)
    (hrequests : ∀ n ∈ s'.requests, n ≤ 10) :
    PagesRun page rest rows s (.error exc) s' where
  posts := hposts
  stray := hstray
  sent := hsent ▸ List.prefix_append _ _
  requests := hrequests
  returns harrives := absurd harrives h
  raises _ := ⟨exc, rfl⟩

theorem PagesRun.of_last (hrequests : ∀ n ∈ s.requests, n ≤ 10)
    (hsound : truthy page.error = false) :
    PagesRun page [] rows s (.ok (rows ++ page.rows)) s where
  posts := rfl
  stray := rfl
  sent := List.prefix_append _ _
  requests := hrequests
  returns _ := by simp
  raises h := absurd ⟨hsound, List.forall_mem_nil _⟩ h

/-- A page that is served comes before what the loop does from it on. -/
theorem PagesRun.cons {f : FollowUp} {k : Nat} {r : Except Exc (List Row)} {s' : Session}
    (hsound : truthy page.error = false) (hserved : f.Served)
    (h : PagesRun f.page rest (rows ++ page.rows) ({ s with tried := k }.serve f rest) r s') :
    PagesRun page (f :: rest) rows s r s' where
  posts := h.posts
  stray := h.stray
  sent := by simpa [Session.serve] using h.sent
  requests := h.requests
  returns harrives := by
    obtain ⟨hr, hsent⟩ := h.returns (arrives_cons.1 harrives).2.2
    exact ⟨by simpa using hr, by simpa [Session.serve] using hsent⟩
  raises hnot := h.raises fun harrives => hnot (arrives_cons.2 ⟨hsound, hserved, harrives⟩)

theorem requests_serve {f : FollowUp} {k : Nat} (hk : k < 10)
    (hrequests : ∀ n ∈ s.requests, n ≤ 10) :
    ∀ n ∈ ({ s with tried := k }.serve f rest).requests, n ≤ 10 := by
  intro n hn
  simp only [Session.requests, Session.serve, List.mem_append, List.mem_singleton] at hn
  rcases hn with (hn | rfl) | rfl
  · exact hrequests n (List.mem_append_left _ hn)
  · exact hk
  · exact Nat.zero_le 10

theorem requests_tried {k : Nat} (hk : k < 10) (hrequests : ∀ n ∈ s.requests, n ≤ 10) :
    ∀ n ∈ { s with tried := k + 1 }.requests, n ≤ 10 := by
  intro n hn
  rcases List.mem_append.1 hn with hn | hn
  · exact hrequests n (List.mem_append_left _ hn)
  · rw [List.mem_singleton.1 hn]
    exact hk

theorem not_arrives_of_error (herror : truthy page.error = true) : ¬ Arrives page rest := by
  intro harrives
  rw [harrives.sound] at herror
  cases herror

theorem readPages_error (herror : truthy page.error = true) (fuel : Nat) :
    readPages (service results) (fuel + 1) page rows s = some (.error page.exc, s) := by
  rw [readPages, if_pos herror]

theorem exists_run_of_error (herror : truthy page.error = true)
    (hrequests : ∀ n ∈ s.requests, n ≤ 10) :
    ∃ r s', (∀ fuel, rest.length ≤ fuel →
        readPages (service results) (fuel + 1) page rows s = some (r, s')) ∧
      PagesRun page rest rows s r s' :=
  ⟨.error page.exc, s, fun fuel _ => readPages_error herror fuel,
    .of_raise (not_arrives_of_error herror) rfl rfl rfl hrequests⟩

theorem readPages_last (hsound : truthy page.error = false) (hnext : page.next = none)
    (fuel : Nat) :
    readPages (service results) (fuel + 1) page rows s = some (.ok (rows ++ page.rows), s) := by
  simp [readPages, hsound, hnext]

theorem readPages_next (hsound : truthy page.error = false) {nextUri : String}
    (hnext : page.next = some nextUri) {result : Except Exc Page} {s' : Session}
    (hopen : attempts (openUrl (service results) nextUri) (List.range 10) s =
      some (some result, s')) (fuel : Nat) :
    readPages (service results) (fuel + 1) page rows s =
      match result with
      | .error exc => some (.error exc, s')
      | .ok payload => readPages (service results) fuel payload (rows ++ page.rows) s' := by
  cases result <;> simp [readPages, hsound, hnext, hopen]

variable (results) in
/-- **The loop ends** for every chain, with as much fuel as there are pages. -/
theorem readPages_chain (hlinked : Linked page rest) (hpending : s.pending = rest)
    (hlast : s.sent.getLast? = some page) (htried : s.tried = 0)
    (hrequests : ∀ n ∈ s.requests, n ≤ 10) (rows : List Row) :
    ∃ r s', (∀ fuel, rest.length ≤ fuel →
        readPages (service results) (fuel + 1) page rows s = some (r, s')) ∧
      PagesRun page rest rows s r s' := by
  induction rest generalizing page rows s with
  | nil =>
    cases hsound : truthy page.error with
    | true => exact exists_run_of_error hsound hrequests
    | false =>
      exact ⟨.ok (rows ++ page.rows), s, fun fuel _ => readPages_last hsound hlinked fuel,
        .of_last hrequests hsound⟩
  | cons f rest ih =>
    obtain ⟨hnext, hlinked⟩ := hlinked
    obtain ⟨nextUri, hnext⟩ := Option.isSome_iff_exists.1 hnext
    have hlink : s.link = some nextUri := by simp [Session.link, hlast, hnext]
    cases hsound : truthy page.error with
    | true => exact exists_run_of_error hsound hrequests
    | false =>
      obtain ⟨k, hk, ⟨hserved, hopen⟩ | ⟨hrefused, exc, hopen⟩⟩ :=
        attempts_followUp results hpending hlink htried
      · have hlast' : ({ s with tried := k }.serve f rest).sent.getLast? = some f.page := by
          simp [Session.serve]
        obtain ⟨r, s', hrun, hpages⟩ := ih hlinked rfl hlast' rfl (requests_serve hk hrequests)
          (rows ++ page.rows)
        refine ⟨r, s', ?_, hpages.cons hsound hserved⟩
        intro fuel hfuel
        obtain ⟨fuel, rfl⟩ := Nat.exists_eq_add_one.2 (Nat.zero_lt_of_lt hfuel)
        rw [readPages_next hsound hnext hopen]
        exact hrun fuel (Nat.le_of_succ_le_succ hfuel)
      · refine ⟨.error exc, { s with tried := k + 1 }, ?_,
          .of_raise ?_ rfl rfl rfl (requests_tried hk hrequests)⟩
        · intro fuel _
          rw [readPages_next hsound hnext hopen]
        · exact fun harrives => hrefused (arrives_cons.1 harrives).2.1

end Pages

/-! ## `run_query` -/

/-- What `run_query` does for a statement whose result is the chain. -/
structure QueryRun (c : Chain) (sql : String) (s : Session) (r : Except Exc (List Row))
    (s' : Session) : Prop where
  exact_rows : r = .ok c.rows ↔ c.Delivered
  raises : ¬ c.Delivered → ∃ exc, r = .error exc
  /-- The statement is submitted once. -/
  posts : s'.posts = s.posts ++ [sql]
  /-- No page is sent twice or left out before another. -/
  sent : s'.sent <+: c.pages
  sent_all : c.Delivered → s'.sent = c.pages
  requests : ∀ n ∈ s'.requests, n ≤ 10
  stray : s'.stray = s.stray

theorem delivered_iff {c : Chain} :
    c.Delivered ↔ c.opening = .served ∧ Arrives c.first c.followUps := by
  constructor
  · rintro ⟨hopened, hsound, hserved⟩
    obtain ⟨hfirst, hrest⟩ := List.forall_mem_cons.1 hsound
    exact ⟨hopened, hfirst, fun f hf => ⟨hserved f hf, hrest _ (List.mem_map_of_mem hf)⟩⟩
  · rintro ⟨hopened, hfirst, hrest⟩
    refine ⟨hopened, List.forall_mem_cons.2 ⟨hfirst, ?_⟩, fun f hf => (hrest f hf).1⟩
    exact List.forall_mem_map.2 fun f hf => (hrest f hf).2

theorem runQuery_opened {results : Nat → Chain} {s : Session} {c : Chain}
    (hc : results s.posts.length = c) (hopened : c.opening = .served) (fuel : Nat) (sql : String) :
    runQuery (service results) fuel sql s =
      readPages (service results) fuel c.first [] (s.submit sql [c.first] c.followUps) := by
  simp [runQuery, service, Session.post, hc, hopened, Reply.answer]

theorem runQuery_refused {results : Nat → Chain} {s : Session} {c : Chain}
    (hc : results s.posts.length = c) (hrefused : c.opening ≠ .served) (sql : String) :
    ∃ exc, ∀ fuel,
      runQuery (service results) fuel sql s = some (.error exc, s.submit sql [] []) := by
  cases hopening : c.opening with
  | served => exact absurd hopening hrefused
  | httpError code =>
    exact ⟨.httpError code, fun fuel => by
      simp [runQuery, service, Session.post, hc, hopening, Reply.answer]⟩
  | requestFailed reason =>
    exact ⟨.requestFailed reason, fun fuel => by
      simp [runQuery, service, Session.post, hc, hopening, Reply.answer]⟩

/-- The run of the pages, from the session that the POST leaves, is the run of the statement. -/
theorem PagesRun.query {c : Chain} {sql : String} {s : Session} {r : Except Exc (List Row)}
    {s' : Session} (hopened : c.opening = .served)
    (h : PagesRun c.first c.followUps [] (s.submit sql [c.first] c.followUps) r s') :
    QueryRun c sql s r s' := by
  have hiff : c.Delivered ↔ Arrives c.first c.followUps := by
    rw [delivered_iff, and_iff_right hopened]
  have hrows : ([] : List Row) ++ c.first.rows ++ c.followUps.flatMap (·.page.rows) = c.rows := by
    simp [Chain.rows, Chain.pages, List.flatMap_map]
  have hreturns : c.Delivered → r = .ok c.rows := by
    intro hdelivered
    rw [← hrows]
    exact (h.returns (hiff.1 hdelivered)).1
  have hraises : ¬ c.Delivered → ∃ exc, r = .error exc := fun hnot => h.raises (hnot ∘ hiff.2)
  refine
    { exact_rows := ⟨fun hr => ?_, hreturns⟩
      raises := hraises
      posts := h.posts
      sent := h.sent
      sent_all := fun hdelivered => (h.returns (hiff.1 hdelivered)).2
      requests := h.requests
      stray := h.stray }
  by_contra hnot
  obtain ⟨exc, hexc⟩ := hraises hnot
  rw [hexc] at hr
  cases hr

/-- The run of a statement, from every session before it. -/
theorem runQuery_run (results : Nat → Chain) (sql : String) (s : Session) :
    ∃ r s', (∀ fuel, (results s.posts.length).followUps.length ≤ fuel →
        runQuery (service results) (fuel + 1) sql s = some (r, s')) ∧
      QueryRun (results s.posts.length) sql s r s' := by
  generalize hc : results s.posts.length = c
  by_cases hopened : c.opening = .served
  · have hrequests : ∀ n ∈ (s.submit sql [c.first] c.followUps).requests, n ≤ 10 := by
      simp [Session.requests, Session.submit]
    obtain ⟨r, s', hrun, hpages⟩ := readPages_chain results c.linked rfl rfl rfl hrequests []
    refine ⟨r, s', fun fuel hfuel => ?_, hpages.query hopened⟩
    rw [runQuery_opened hc hopened]
    exact hrun fuel hfuel
  · obtain ⟨exc, hrun⟩ := runQuery_refused hc hopened sql
    have hnot : ¬ c.Delivered := fun hdelivered => hopened hdelivered.opened
    refine ⟨.error exc, s.submit sql [] [], fun fuel _ => hrun (fuel + 1), ?_⟩
    exact
      { exact_rows := iff_of_false (fun hr => by cases hr) hnot
        raises := fun _ => ⟨exc, rfl⟩
        posts := rfl
        sent := List.nil_prefix
        sent_all := fun hdelivered => absurd hdelivered hnot
        requests := by simp [Session.requests, Session.submit]
        stray := rfl }

/-- **`run_query` returns exactly the pages.** For every chain of pages and every session before the
statement, `run_query` ends. It returns the rows of all pages, in their order, if and only if the
chain is delivered, after each page was sent once. Otherwise it raises, at a page with none left
out before it. Either way it submits the statement once, asks for each follow-up page at most ten
times, and for nothing else. -/
theorem runQuery_exact (c : Chain) (sql : String) (s : Session) :
    ∃ r s', (∀ fuel, c.followUps.length < fuel →
        runQuery (service fun _ => c) fuel sql s = some (r, s')) ∧
      (r = .ok c.rows ↔ c.Delivered) ∧ (c.Delivered → s'.sent = c.pages) ∧
      (¬ c.Delivered → (∃ exc, r = .error exc) ∧ s'.sent <+: c.pages) ∧
      s'.posts = s.posts ++ [sql] ∧ (∀ n ∈ s'.requests, n ≤ 10) ∧ s'.stray = s.stray := by
  obtain ⟨r, s', hrun, hquery⟩ := runQuery_run (fun _ => c) sql s
  refine ⟨r, s', ?_, hquery.exact_rows, hquery.sent_all,
    fun hnot => ⟨hquery.raises hnot, hquery.sent⟩, hquery.posts, hquery.requests, hquery.stray⟩
  intro fuel hfuel
  obtain ⟨fuel, rfl⟩ := Nat.exists_eq_add_one.2 (Nat.zero_lt_of_lt hfuel)
  exact hrun fuel (Nat.le_of_lt_succ hfuel)

end Lakehouse.Verify
