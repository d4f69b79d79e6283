import FederatedSparql.Endpoint.Remote
import Mathlib

/-!
Whom a failed request is blamed on.

A request to a remote member can fail because no response comes or its body gets lost, because the
response reports a failure, because its body is no result document, and because a value in the
document is of an unknown kind. The errors of the first three carry the id of the member. The last
one is met only when the rows are read, behind the place where errors are given their origin, so its
error names nobody: `failures_blame_iff` says for which replies a request is safe from that.
-/

namespace FederatedSparql

/-! ### Computations that can fail -/

section Failing

variable {ε α β : Type} {x : Except ε α} {f : α → Except ε β} {e : ε}

theorem bind_eq_error_iff :
    x >>= f = .error e ↔ x = .error e ∨ ∃ a, x = .ok a ∧ f a = .error e := by
  cases x with
  | error e' =>
    constructor
    · intro h
      cases h
      exact .inl rfl
    · rintro (h | ⟨a, h, _⟩)
      · cases h
        rfl
      · cases h
  | ok a =>
    constructor
    · intro h
      exact .inr ⟨a, rfl, h⟩
    · rintro (h | ⟨_, h, he⟩)
      · cases h
      · cases h
        exact he

theorem bind_pure_eq_error_iff {g : α → β} :
    (x >>= fun a => pure (g a)) = .error e ↔ x = .error e := by
  rw [bind_eq_error_iff]
  constructor
  · rintro (h | ⟨a, -, he⟩)
    · exact h
    · cases he
  · intro h
    exact .inl h

/-- The error of a traversal is that of one of its elements. -/
theorem exists_of_mapM_eq_error {xs : List α} (h : xs.mapM f = .error e) :
    ∃ x ∈ xs, f x = .error e := by
  induction xs with
  | nil => cases h
  | cons x xs ih =>
    rw [List.mapM_cons] at h
    cases hx : f x with
    | error e' =>
      rw [hx] at h
      cases h
      exact ⟨x, List.mem_cons_self, hx⟩
    | ok y =>
      rw [hx] at h
      obtain ⟨w, hw, he⟩ := ih (bind_pure_eq_error_iff.mp h)
      exact ⟨w, List.mem_cons_of_mem x hw, he⟩

/-- A traversal fails just if one of its elements does. -/
theorem mapM_fails_iff {xs : List α} :
    (∃ e, xs.mapM f = .error e) ↔ ∃ x ∈ xs, ∃ e, f x = .error e := by
  constructor
  · rintro ⟨e, h⟩
    obtain ⟨x, hx, he⟩ := exists_of_mapM_eq_error h
    exact ⟨x, hx, e, he⟩
  · rintro ⟨x, hx, e, he⟩
    induction xs with
    | nil => cases hx
    | cons w xs ih =>
      rw [List.mapM_cons]
      cases hw : f w with
      | error e' => exact ⟨e', rfl⟩
      | ok y =>
        rcases List.mem_cons.mp hx with rfl | hx
        · rw [hw] at he
          cases he
        · obtain ⟨e', he'⟩ := ih hx
          exact ⟨e', bind_pure_eq_error_iff.mpr he'⟩

end Failing

/-! ### Values and rows -/

namespace ResultValue

/-- The kinds of values that mean a term. -/
def termKinds : List String := ["uri", "bnode", "literal", "typed-literal"]

theorem toTerm_eq_error_iff {v : ResultValue} {e : FedError} :
    v.toTerm = .error e ↔
      v.kind ∉ termKinds ∧ e = .malformedQuery (.unknownTermType v.kind) := by
  unfold toTerm
  split <;> simp_all [termKinds, eq_comm]

end ResultValue

namespace Results

open ResultValue (termKinds toTerm_eq_error_iff)

/-- All values that count in a document are of known kinds. -/
def Readable (r : Results) : Prop :=
  ∀ solution ∈ r.solutions.getD [], ∀ v ∈ lastValues solution, v.2.kind ∈ termKinds

variable {r : Results} {solution : List (String × ResultValue)} {e : FedError}

theorem exists_of_solutionRow_eq_error (h : solutionRow solution = .error e) :
    ∃ v ∈ lastValues solution, v.2.toTerm = .error e := by
  obtain ⟨v, hv, he⟩ := exists_of_mapM_eq_error (bind_pure_eq_error_iff.mp h)
  exact ⟨v, hv, bind_pure_eq_error_iff.mp he⟩

theorem solutionRow_fails_iff :
    (∃ e, solutionRow solution = .error e) ↔
      ∃ v ∈ lastValues solution, v.2.kind ∉ termKinds := by
  simp only [solutionRow, bind_pure_eq_error_iff, mapM_fails_iff, toTerm_eq_error_iff,
    exists_and_left, exists_eq, and_true]

/-- What keeps the rows of a document from being read is the unknown kind of a value. -/
theorem unknownTermType_of_rows_eq_error (h : r.rows = .error e) :
    ∃ kind ∉ termKinds, e = .malformedQuery (.unknownTermType kind) := by
  obtain ⟨solution, -, hsolution⟩ := exists_of_mapM_eq_error h
  obtain ⟨v, -, hv⟩ := exists_of_solutionRow_eq_error hsolution
  exact ⟨v.2.kind, toTerm_eq_error_iff.mp hv⟩

theorem rows_fail_iff : (∃ e, r.rows = .error e) ↔ ¬ r.Readable := by
  simp only [rows, mapM_fails_iff, solutionRow_fails_iff, Readable, not_forall, exists_prop]

end Results

/-! ### Replies -/

/-- No response came through the connection, or its body got lost. -/
def HttpReply.isConnectionFault : HttpReply → Bool
  | .unreachable _ | .timedOut _ | .unreadable _ => true
  | .response .. | .failed _ => false

/-- A successful response carries a result document. -/
def HttpReply.Delivers (reply : HttpReply) (document : Results) : Prop :=
  ∃ status body, reply = .response status body ∧ 200 ≤ status ∧ status < 300 ∧
    Results.parse body = .ok document

namespace Remote

variable {σ : Type} {m : Remote} {send : HttpRequest → σ → HttpReply × σ} {r : Request} {s : σ}
  {query : String} {reply : HttpReply} {document : Results} {e : FedError}

/-- The error names the member; it is a fault of the connection just if the reply is one, and
otherwise the failure of an evaluation. -/
structure Blames (m : Remote) (reply : HttpReply) (e : FedError) : Prop where
  names : e.endpointId? = some m.id
  faults : e.isConnectionFault = reply.isConnectionFault
  evaluates : reply.isConnectionFault = false →
    ∃ status detail, e = .endpoint (.remoteEvaluation m.id status detail)

/-- A lost message is blamed on the connection of the member. -/
theorem Blames.connection {detail : String} (h : reply.isConnectionFault = true) :
    m.Blames reply (.endpoint (.connection m.id detail)) where
  names := rfl
  faults := h.symm
  evaluates hno := by
    rw [h] at hno
    cases hno

/-- What came through is blamed on the evaluation by the member. -/
theorem Blames.remoteFailure {text info : String} (h : reply.isConnectionFault = false) :
    m.Blames reply (.endpoint (remoteFailure m.id text info)) where
  names := rfl
  faults := h.symm
  evaluates _ := ⟨_, _, rfl⟩

theorem results_eq_ok_iff : m.results query reply = .ok document ↔ reply.Delivers document := by
  cases reply with
  | response status body =>
    unfold results
    constructor
    · intro h
      dsimp only at h
      split at h
      case isTrue hs =>
        split at h
        case h_1 hparse =>
          cases h
          exact ⟨status, body, rfl, hs.1, hs.2, hparse⟩
        case h_2 => cases h
      case isFalse => cases h
    · rintro ⟨_, _, heq, hlo, hhi, hparse⟩
      cases heq
      simp only [hlo, hhi, and_self, if_true, hparse]
  | unreadable | unreachable | timedOut | failed =>
    constructor
    · intro h
      cases h
    · rintro ⟨_, _, heq, -⟩
      cases heq

/-- A reply without a document is blamed on the member. -/
theorem blames_of_results_eq_error (h : m.results query reply = .error e) : m.Blames reply e := by
  cases reply with
  | unreachable | timedOut | unreadable =>
    cases h
    exact .connection rfl
  | failed =>
    cases h
    exact .remoteFailure rfl
  | response status body =>
    unfold results at h
    dsimp only at h
    split at h
    case isTrue =>
      split at h
      case h_1 => cases h
      case h_2 =>
        cases h
        exact .remoteFailure rfl
    case isFalse =>
      cases h
      exact .remoteFailure rfl

/-- The answer to a request is made of the rows of the document. -/
def readsRows (m : Remote) (document : Results) : Request → Bool
  | .has .. => !m.asks
  | .get .. | .bound .. => true
  | .triples s p o => !((TriplePattern.ofPositions s p o).isFullyBound && m.asks)
  | .query .. => document.boolean.isNone

theorem confirms_eq_error_iff :
    m.confirms document = .error e ↔ m.asks = false ∧ document.rows = .error e := by
  unfold confirms
  cases m.asks with
  | true =>
    constructor
    · intro h
      cases h
    · rintro ⟨h, -⟩
      cases h
  | false => simp only [Bool.false_eq_true, if_false, bind_pure_eq_error_iff, true_and]

theorem answer_eq_error_iff :
    m.answer document r = .error e ↔ m.readsRows document r = true ∧ document.rows = .error e := by
  cases r with
  | has => simp only [answer, readsRows, bind_pure_eq_error_iff, confirms_eq_error_iff,
      Bool.not_eq_true']
  | get | bound => simp only [answer, readsRows, bind_pure_eq_error_iff, true_and]
  | triples s p o =>
    unfold answer readsRows
    dsimp only
    split
    case isTrue hbound =>
      simp only [hbound, Bool.true_and, Bool.not_eq_true', bind_pure_eq_error_iff,
        confirms_eq_error_iff]
    case isFalse hbound =>
      simp only [hbound, Bool.false_and, Bool.not_false, bind_pure_eq_error_iff, true_and]
  | query =>
    unfold answer readsRows
    cases document.boolean with
    | some =>
      constructor
      · intro h
        cases h
      · rintro ⟨h, -⟩
        cases h
    | none => simp only [Option.isNone_none, bind_pure_eq_error_iff, true_and]

/-- A request that could be put into a query fails for want of a document, or because the rows of
the document cannot be read. -/
theorem ask_eq_error_iff (hquery : m.queryText r = .ok query)
    (hreply : (send (m.post query) s).1 = reply) :
    (m.ask send r s).1 = .error e ↔
      m.results query reply = .error e ∨
        ∃ document, reply.Delivers document ∧ m.readsRows document r = true ∧
          document.rows = .error e := by
  have hask : (m.ask send r s).1 =
      m.results query reply >>= fun document => m.answer document r := by
    unfold ask
    rw [hquery, ← hreply]
    rfl
  rw [hask, bind_eq_error_iff]
  simp only [results_eq_ok_iff, answer_eq_error_iff]

/-- Every failure of a request that could be put into a query is blamed on the member, and on its
connection just if the reply got lost there, if and only if the rows that the answer is made of can
be read. Where they cannot, the failure is the unknown kind of a value. -/
theorem failures_blame_iff (hquery : m.queryText r = .ok query)
    (hreply : (send (m.post query) s).1 = reply) :
    ((∀ e, (m.ask send r s).1 = .error e → m.Blames reply e) ↔
      ∀ document, reply.Delivers document → m.readsRows document r = true →
        document.Readable) ∧
    ∀ e, (m.ask send r s).1 = .error e →
      m.Blames reply e ∨
        ∃ kind ∉ ResultValue.termKinds, e = .malformedQuery (.unknownTermType kind) := by
  refine ⟨⟨?_, ?_⟩, ?_⟩
  · intro hblames document hdelivers hreads
    by_contra hunreadable
    obtain ⟨e, he⟩ := Results.rows_fail_iff.mpr hunreadable
    have hfails : (m.ask send r s).1 = .error e :=
      (ask_eq_error_iff hquery hreply).mpr (.inr ⟨document, hdelivers, hreads, he⟩)
    obtain ⟨kind, -, rfl⟩ := Results.unknownTermType_of_rows_eq_error he
    cases (hblames _ hfails).names
  · intro hreadable e hfails
    rcases (ask_eq_error_iff hquery hreply).mp hfails with h | ⟨document, hdelivers, hreads, he⟩
    · exact blames_of_results_eq_error h
    · exact absurd (hreadable document hdelivers hreads) (Results.rows_fail_iff.mp ⟨e, he⟩)
  · intro e hfails
    rcases (ask_eq_error_iff hquery hreply).mp hfails with h | ⟨document, -, -, he⟩
    · exact .inl (blames_of_results_eq_error h)
    · exact .inr (Results.unknownTermType_of_rows_eq_error he)

/-! Two replies to one member: the service is not available, and a value is of a kind that no term
is of. -/

/-- A member with the default settings. -/
def standard : Remote where
  id := "remote"
  name := "remote"
  url := "http://remote.test/sparql"

/-- A transport that gives the same reply to all messages. -/
def always (reply : HttpReply) : HttpRequest → Unit → HttpReply × Unit := fun _ s => (reply, s)

/-- The pattern of all uses of a predicate. -/
def usesOfP : TriplePattern := ⟨.var "s", .const (.iri "p"), .var "o"⟩

/-- A document with one value, which is said to be a triple. -/
def tripleValue : String :=
  "\x7b\"results\":\x7b\"bindings\":" ++
    "[\x7b\"x\":\x7b\"type\":\"triple\",\"value\":\"t\"\x7d\x7d]\x7d\x7d"

/-- Whether there is a use of the predicate cannot be told, and the member is blamed for it. -/
theorem failures_blame_unavailable :
    ∃ e, (standard.ask (always (.response 503 "")) (.has usesOfP ∅) ()).1 = .error e ∧
      standard.Blames (.response 503 "") e := by
  have hblames : ∀ e, (standard.ask (always (.response 503 "")) (.has usesOfP ∅) ()).1 = .error e →
      standard.Blames (.response 503 "") e := by
    refine (failures_blame_iff rfl rfl).1.mpr ?_
    rintro document ⟨status, body, heq, -, hsuccess, -⟩
    cases heq
    exact absurd hsuccess (by decide)
  exact ⟨_, rfl, hblames _ rfl⟩

/-- The uses cannot be given, and the error names nobody. -/
theorem unknown_kind_blames_nobody :
    ¬ ∀ e, (standard.ask (always (.response 200 tripleValue)) (.get [usesOfP] ∅ none none) ()).1 =
        .error e → e.endpointId? = some standard.id := by
  intro hnames
  have hfails :
      (standard.ask (always (.response 200 tripleValue)) (.get [usesOfP] ∅ none none) ()).1 =
        .error (.malformedQuery (.unknownTermType "triple")) := by
    cbv
  cases hnames _ hfails

end Remote

end FederatedSparql
