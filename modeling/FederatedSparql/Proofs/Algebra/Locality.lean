import FederatedSparql.Algebra.Condition
import FederatedSparql.Plan.Basic
import FederatedSparql.Proofs.Algebra.Repetitions
import FederatedSparql.Proofs.Rdf.Merge

/-!
Expressions look at their variables only.

* `Expr.substitute_exact`: putting terms into an expression is evaluating it where they take
  precedence, and leaves the other variables.
* `Expr.accepts_congr`: solutions that agree on the variables of a condition are accepted alike.
* `Expr.accepts_substitute`: putting terms into a condition is accepting a solution that has them.
* `Expr.accepts_eq_all_conjuncts`, `Expr.acceptsAll_andAll`: a condition accepts a solution if all
  of its conjuncts do, and conditions joined by conjunction accept it if each of them does.
* `Expr.accepts_resourceEquality`: the equality of a variable with a resource is a lookup.
-/

namespace FederatedSparql.Expr

variable {e : Expr} {a b c d : Bindings} {v : String} {t : Term}

/-! ### Substitution -/

theorem mem_vars : v ∈ e.vars ↔ v ∈ e.mentions := List.mem_eraseDups

theorem effectiveBoolean?_ofBool_true : (Term.ofBool true).effectiveBoolean? = some true := by
  simp [Term.ofBool, Term.typed, Term.effectiveBoolean?]

/-- A condition into which terms are put has the truth and the value that it has where the terms are
bound, whatever the dialect of regular expressions. -/
theorem truthWith_substitute (search : RegexSearch)
    (h : ∀ v ∈ e.mentions, d.get? v = (b.get? v).or (c.get? v)) :
    (e.substitute b).truthWith search c = e.truthWith search d ∧
      (e.substitute b).valueWith search c = e.valueWith search d := by
  induction e with
  | var name =>
    have hn := h name (by simp [mentions])
    cases hb : b.get? name with
    | none => simp [substitute, hb, truthWith, valueWith, valueGiven, hn]
    | some t => simp [substitute, hb, truthWith, valueWith, valueGiven, hn]
  | const t => simp [substitute, truthWith, valueWith, valueGiven]
  | bound name =>
    have hn := h name (by simp [mentions])
    cases hb : b.get? name with
    | none => simp [substitute, truthWith, valueWith, valueGiven, Bindings.contains, hb, hn]
    | some t =>
      simp [substitute, truthWith, valueWith, valueGiven, Bindings.contains, hb, hn,
        effectiveBoolean?_ofBool_true]
  | compare op l r ihl ihr =>
    obtain ⟨-, hl⟩ := ihl fun v hv => h v (by simp [mentions, hv])
    obtain ⟨-, hr⟩ := ihr fun v hv => h v (by simp [mentions, hv])
    simp only [valueWith] at hl hr
    have truth : ((compare op l r).substitute b).truthWith search c =
        (compare op l r).truthWith search d := by
      simp only [substitute, truthWith, hl, hr]
    exact ⟨truth, congrArg (Option.map Term.ofBool) truth⟩
  | and l r ihl ihr =>
    obtain ⟨hl, -⟩ := ihl fun v hv => h v (by simp [mentions, hv])
    obtain ⟨hr, -⟩ := ihr fun v hv => h v (by simp [mentions, hv])
    simp [substitute, truthWith, valueWith, valueGiven, hl, hr]
  | or l r ihl ihr =>
    obtain ⟨hl, -⟩ := ihl fun v hv => h v (by simp [mentions, hv])
    obtain ⟨hr, -⟩ := ihr fun v hv => h v (by simp [mentions, hv])
    simp [substitute, truthWith, valueWith, valueGiven, hl, hr]
  | not e ih =>
    obtain ⟨he, -⟩ := ih h
    simp [substitute, truthWith, valueWith, valueGiven, he]
  | regex a p iha ihp =>
    obtain ⟨-, ha⟩ := iha fun v hv => h v (by simp [mentions, hv])
    obtain ⟨-, hp⟩ := ihp fun v hv => h v (by simp [mentions, hv])
    simp only [valueWith] at ha hp
    have truth : ((regex a p).substitute b).truthWith search c =
        (regex a p).truthWith search d := by
      simp only [substitute, truthWith, ha, hp]
    exact ⟨truth, congrArg (Option.map Term.ofBool) truth⟩
  | regexWith a p f iha ihp ihf =>
    obtain ⟨-, ha⟩ := iha fun v hv => h v (by simp [mentions, hv])
    obtain ⟨-, hp⟩ := ihp fun v hv => h v (by simp [mentions, hv])
    obtain ⟨-, hf⟩ := ihf fun v hv => h v (by simp [mentions, hv])
    simp only [valueWith] at ha hp hf
    have truth : ((regexWith a p f).substitute b).truthWith search c =
        (regexWith a p f).truthWith search d := by
      simp only [substitute, truthWith, ha, hp, hf]
    exact ⟨truth, congrArg (Option.map Term.ofBool) truth⟩

theorem substitute_empty (e : Expr) : e.substitute ∅ = e := by
  induction e <;> simp_all [substitute, Bindings.contains]

/-- What an expression comes to depends on the variables it mentions. -/
theorem truthWith_congr (search : RegexSearch) (h : ∀ v ∈ e.mentions, a.get? v = b.get? v) :
    e.truthWith search a = e.truthWith search b ∧
      e.valueWith search a = e.valueWith search b := by
  have same : (e.substitute ∅).truthWith search a = e.truthWith search b ∧
      (e.substitute ∅).valueWith search a = e.valueWith search b :=
    truthWith_substitute search fun v hv => by simp [h v hv]
  rwa [substitute_empty] at same

/-- **What remains to be mentioned is what is not put in**, in the order in which it was. -/
theorem mentions_substitute (b : Bindings) (e : Expr) :
    (e.substitute b).mentions = e.mentions.filter fun v => !b.contains v := by
  induction e with
  | var name => cases hb : b.get? name <;> simp [substitute, mentions, Bindings.contains, hb]
  | const t => rfl
  | bound name => cases hb : b.get? name <;> simp [substitute, mentions, Bindings.contains, hb]
  | compare op l r ihl ihr => simp only [substitute, mentions, List.filter_append, ihl, ihr]
  | and l r ihl ihr => simp only [substitute, mentions, List.filter_append, ihl, ihr]
  | or l r ihl ihr => simp only [substitute, mentions, List.filter_append, ihl, ihr]
  | not e ih => exact ih
  | regex a p iha ihp => simp only [substitute, mentions, List.filter_append, iha, ihp]
  | regexWith a p f iha ihp ihf =>
    simp only [substitute, mentions, List.filter_append, iha, ihp, ihf]

theorem vars_substitute (b : Bindings) (e : Expr) :
    (e.substitute b).vars = e.vars.filter fun v => !b.contains v := by
  rw [vars, mentions_substitute, vars, filter_eraseDups]

theorem mem_vars_substitute : v ∈ (e.substitute b).vars ↔ v ∈ e.vars ∧ b.get? v = none := by
  simp [vars_substitute, Bindings.contains_eq_false_iff]

/-- **Evaluation after terms are put in.**  Whatever regular expressions are found in texts, and also
where there is no result: the expression comes to what it does where those terms take precedence, of
its variables those that are not bound remain, and binding sets that agree on its variables give it
the same results. -/
theorem substitute_exact (search : RegexSearch) (e : Expr) (b c : Bindings) :
    ((e.substitute b).valueWith search c = e.valueWith search (b.overriding c) ∧
        (e.substitute b).truthWith search c = e.truthWith search (b.overriding c)) ∧
      (e.substitute b).vars = (e.vars.filter fun v => !b.contains v) ∧
      ((∀ v ∈ e.vars, b.get? v = c.get? v) →
        e.valueWith search b = e.valueWith search c ∧
          e.truthWith search b = e.truthWith search c) := by
  obtain ⟨truth, value⟩ := truthWith_substitute (e := e) search fun v _ => b.get?_overriding c v
  refine ⟨⟨value, truth⟩, vars_substitute b e, fun agree => ?_⟩
  exact (truthWith_congr search fun v hv => agree v (mem_vars.2 hv)).symm

/-- Only what is put in for mentioned variables counts. -/
theorem substitute_congr (h : ∀ v ∈ e.mentions, a.get? v = b.get? v) :
    e.substitute a = e.substitute b := by
  induction e with
  | bound name =>
    have hn := h name (by simp [mentions])
    unfold substitute Bindings.contains
    rw [hn]
  | _ => simp_all [substitute, mentions]

/-- Putting in terms and then more terms is putting in all of them at once. -/
theorem substitute_substitute (h : a.Extends b) (e : Expr) :
    (e.substitute a).substitute b = e.substitute b := by
  induction e with
  | var name =>
    cases ha : a.get? name with
    | none => simp [substitute, ha]
    | some t => simp [substitute, ha, h name t ha]
  | bound name =>
    cases ha : a.get? name with
    | none => simp [substitute, Bindings.contains, ha]
    | some t => simp [substitute, Bindings.contains, ha, h name t ha]
  | _ => simp_all [substitute]

theorem conjuncts_substitute (b : Bindings) (e : Expr) :
    (e.substitute b).conjuncts = e.conjuncts.map (·.substitute b) := by
  induction e with
  | and l r ihl ihr => rw [substitute, conjuncts, ihl, ihr, conjuncts, List.map_append]
  | var name => cases h : b.get? name <;> simp [substitute, conjuncts, h]
  | bound name => cases h : b.contains name <;> simp [substitute, conjuncts, h]
  | _ => rfl

theorem andAll_map_substitute (b : Bindings) (es : List Expr) :
    andAll (es.map (·.substitute b)) = (andAll es).map (·.substitute b) := by
  cases es with
  | nil => rfl
  | cons e es =>
    have folded : ∀ e : Expr, (es.map (·.substitute b)).foldl and (e.substitute b) =
        (es.foldl and e).substitute b := by
      induction es with
      | nil => exact fun e => rfl
      | cons f es ih => exact fun e => ih (.and e f)
    exact congrArg some (folded e)

theorem conjoin_substitute (b : Bindings) (f : Option Expr) (e : Expr) :
    (conjoin f e).map (·.substitute b) =
      conjoin (f.map (·.substitute b)) (e.substitute b) := by
  cases f <;> rfl

/-! ### Acceptance -/

/-- **Putting terms into a condition is accepting a solution that has them.** -/
theorem accepts_substitute (h : ∀ v ∈ e.vars, d.get? v = (b.get? v).or (c.get? v)) :
    (e.substitute b).accepts c = e.accepts d := by
  simp only [accepts, truth?]
  rw [(truthWith_substitute _ fun v hv => h v (mem_vars.2 hv)).1]

/-- **A condition looks at its variables only.** -/
theorem accepts_congr (h : ∀ v ∈ e.vars, a.get? v = b.get? v) : e.accepts a = e.accepts b := by
  simp only [accepts, truth?]
  rw [(truthWith_congr _ fun v hv => h v (mem_vars.2 hv)).1]

/-- The variables of a condition that may be missing. -/
def varsOf (e : Option Expr) : List String := (e.map vars).getD []

theorem acceptsAll_congr {f : Option Expr} (h : ∀ v ∈ varsOf f, a.get? v = b.get? v) :
    acceptsAll f a = acceptsAll f b := by
  cases f with
  | none => rfl
  | some e => exact accepts_congr h

/-- A solution that binds the variables of a condition is accepted like all that extend it. -/
theorem acceptsAll_of_extends {f : Option Expr} (hab : a.Extends b)
    (h : ∀ v ∈ varsOf f, a.contains v = true) : acceptsAll f b = acceptsAll f a := by
  refine acceptsAll_congr fun v hv => ?_
  obtain ⟨t, ht⟩ := Bindings.contains_iff.1 (h v hv)
  rw [ht, hab v t ht]

theorem accepts_of_extends (hab : a.Extends b) (h : ∀ v ∈ e.vars, a.contains v = true) :
    e.accepts b = e.accepts a :=
  acceptsAll_of_extends (f := some e) hab h

/-! ### Conjunctions -/

theorem accepts_and (l r : Expr) (b : Bindings) :
    (and l r).accepts b = (l.accepts b && r.accepts b) := by
  simp only [accepts, truth?, truthWith]
  rcases l.truthWith Text.Regex.search? b with _ | _ | _ <;>
    rcases r.truthWith Text.Regex.search? b with _ | _ | _ <;> rfl

theorem accepts_eq_all_conjuncts (e : Expr) (b : Bindings) :
    e.accepts b = e.conjuncts.all (·.accepts b) := by
  induction e with
  | and l r ihl ihr => rw [accepts_and, ihl, ihr, conjuncts, List.all_append]
  | _ => simp [conjuncts]

theorem accepts_foldl_and (e : Expr) (es : List Expr) (b : Bindings) :
    (es.foldl and e).accepts b = (e.accepts b && es.all (·.accepts b)) := by
  induction es generalizing e with
  | nil => simp
  | cons x xs ih => rw [List.foldl_cons, ih, accepts_and, List.all_cons, Bool.and_assoc]

theorem acceptsAll_andAll (es : List Expr) (b : Bindings) :
    acceptsAll (andAll es) b = es.all (·.accepts b) := by
  cases es with
  | nil => rfl
  | cons e es => exact accepts_foldl_and e es b

theorem acceptsAll_conjoin (f : Option Expr) (e : Expr) (b : Bindings) :
    acceptsAll (conjoin f e) b = (acceptsAll f b && e.accepts b) := by
  cases f with
  | none => simp [conjoin, acceptsAll]
  | some f => simp [conjoin, acceptsAll, accepts_and]

/-! ### Equalities with resources -/

theorem compareTerms?_eq_resource {s : Term} (ht : t.isResource = true) :
    compareTerms? .eq s t = some (decide (s = t)) ∧
      compareTerms? .eq t s = some (decide (t = s)) := by
  have numeric : t.numericValue? = none := by
    cases t <;> simp_all [Term.isResource, Term.numericValue?]
  have plain : t.isPlainString = false := by
    cases t <;> simp_all [Term.isResource, Term.isPlainString]
  constructor
  · cases hs : s.numericValue? <;> simp [compareTerms?, numeric, plain, hs]
  · simp [compareTerms?, numeric, plain]

/-- **The equality of a variable with a resource is a lookup.** -/
theorem accepts_resourceEquality (h : e.resourceEquality? = some (v, t)) :
    e.accepts b = true ↔ b.get? v = some t := by
  unfold resourceEquality? at h
  split at h
  · next name u =>
    split at h
    · next hu =>
      obtain ⟨rfl, rfl⟩ : name = v ∧ u = t := by simpa using h
      cases hb : b.get? name with
      | none => simp [accepts, truth?, truthWith, valueGiven, hb]
      | some s =>
        simp [accepts, truth?, truthWith, valueGiven, hb, (compareTerms?_eq_resource hu).1]
    · simp at h
  · next u name =>
    split at h
    · next hu =>
      obtain ⟨rfl, rfl⟩ : name = v ∧ u = t := by simpa using h
      cases hb : b.get? name with
      | none => simp [accepts, truth?, truthWith, valueGiven, hb]
      | some s =>
        simp [accepts, truth?, truthWith, valueGiven, hb, (compareTerms?_eq_resource hu).2, eq_comm]
    · simp at h
  · simp at h

end FederatedSparql.Expr
