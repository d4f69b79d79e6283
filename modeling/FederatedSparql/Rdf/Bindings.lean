import FederatedSparql.Rdf.Term

/-!
Solution mappings: finite maps from variable names to terms.

A mapping is a list of entries in strictly ascending order of names, so two mappings that bind the
same variables to the same terms are equal (`Bindings.ext_get?`).  `merge?` joins two mappings that
agree on every variable both bind.
-/

namespace FederatedSparql

/-- A finite map from variable names to terms, in ascending order of names. -/
structure Bindings where
  entries : List (String × Term)
  ascending : entries.Pairwise (fun a b => a.1 < b.1)

namespace Bindings

instance : DecidableEq Bindings := fun a b =>
  decidable_of_iff (a.entries = b.entries) (by cases a; cases b; simp)

instance : Repr Bindings := ⟨fun b n => reprPrec b.entries n⟩

/-- The mapping that binds nothing. -/
def empty : Bindings := ⟨[], .nil⟩

instance : EmptyCollection Bindings := ⟨empty⟩

instance : Inhabited Bindings := ⟨empty⟩

/-! ### Entries -/

/-- The term that a list of entries gives to a name. -/
def lookupEntry (name : String) : List (String × Term) → Option Term
  | [] => none
  | (n, t) :: rest => if n = name then some t else lookupEntry name rest

/-- Puts an entry at its place, over an entry of the same name. -/
def insertEntry (name : String) (term : Term) : List (String × Term) → List (String × Term)
  | [] => [(name, term)]
  | (n, t) :: rest =>
    if name < n then (name, term) :: (n, t) :: rest
    else if name = n then (name, term) :: rest
    else (n, t) :: insertEntry name term rest

theorem mem_insertEntry {name : String} {term : Term} {es : List (String × Term)}
    {e : String × Term} (h : e ∈ insertEntry name term es) : e = (name, term) ∨ e ∈ es := by
  induction es with
  | nil => simpa [insertEntry] using h
  | cons x rest ih =>
    obtain ⟨n, t⟩ := x
    unfold insertEntry at h
    split at h
    · simpa using h
    · split at h
      · rcases List.mem_cons.1 h with h | h
        · exact .inl h
        · exact .inr (List.mem_cons_of_mem _ h)
      · rcases List.mem_cons.1 h with h | h
        · exact .inr (h ▸ List.mem_cons_self)
        · exact (ih h).imp id (List.mem_cons_of_mem _)

theorem insertEntry_ascending {name : String} {term : Term} {es : List (String × Term)}
    (h : es.Pairwise (fun a b => a.1 < b.1)) :
    (insertEntry name term es).Pairwise (fun a b => a.1 < b.1) := by
  induction es with
  | nil => simp [insertEntry]
  | cons x rest ih =>
    obtain ⟨n, t⟩ := x
    have hrest := List.pairwise_cons.1 h
    unfold insertEntry
    split
    · next hlt =>
      refine List.pairwise_cons.2 ⟨fun e he => ?_, h⟩
      rcases List.mem_cons.1 he with rfl | he
      · exact hlt
      · exact String.lt_trans hlt (hrest.1 e he)
    · next hnlt =>
      split
      · next heq =>
        subst heq
        exact List.pairwise_cons.2 ⟨hrest.1, hrest.2⟩
      · next hne =>
        refine List.pairwise_cons.2 ⟨fun e he => ?_, ih hrest.2⟩
        rcases mem_insertEntry he with rfl | he
        · rcases String.le_total name n with hle | hle
          · exact absurd (String.le_antisymm hle (String.not_lt.1 hnlt)) hne
          · exact String.not_le.1 fun hle' => hne (String.le_antisymm hle' hle)
        · exact hrest.1 e he

theorem lookupEntry_insertEntry (name other : String) (term : Term) (es : List (String × Term)) :
    lookupEntry other (insertEntry name term es) =
      if other = name then some term else lookupEntry other es := by
  induction es with
  | nil => grind [insertEntry, lookupEntry]
  | cons x rest ih => obtain ⟨n, t⟩ := x; grind [insertEntry, lookupEntry]

/-! ### The map -/

/-- The term a variable is bound to. -/
def get? (b : Bindings) (name : String) : Option Term := lookupEntry name b.entries

/-- Whether a variable is bound. -/
def contains (b : Bindings) (name : String) : Bool := (b.get? name).isSome

/-- The number of variables bound. -/
def size (b : Bindings) : Nat := b.entries.length

/-- Whether nothing is bound. -/
def isEmpty (b : Bindings) : Bool := b.entries.isEmpty

/-- The variables bound, in ascending order. -/
def names (b : Bindings) : List String := b.entries.map (·.1)

/-- Binds a variable, over any term it had before. -/
def insert (b : Bindings) (name : String) (term : Term) : Bindings :=
  ⟨insertEntry name term b.entries, insertEntry_ascending b.ascending⟩

/-- Leaves out the variables that a test rejects. -/
def restrict (b : Bindings) (keep : String → Bool) : Bindings :=
  ⟨b.entries.filter fun e => keep e.1, b.ascending.filter _⟩

/-- Unbinds a variable. -/
def erase (b : Bindings) (name : String) : Bindings := b.restrict (· != name)

/-- Keeps the named variables only. -/
def project (b : Bindings) (vars : List String) : Bindings := b.restrict vars.contains

/-- The mapping with the given entries, a later one over an earlier one of its name. -/
def ofList (es : List (String × Term)) : Bindings :=
  es.foldl (fun b e => b.insert e.1 e.2) ∅

/-- The mapping that binds one variable. -/
def single (name : String) (term : Term) : Bindings :=
  ⟨[(name, term)], List.pairwise_singleton ..⟩

/-- Adds one entry, unless the variable is bound to another term. -/
def addEntry? (b : Bindings) (e : String × Term) : Option Bindings :=
  match b.get? e.1 with
  | some t => if t = e.2 then some b else none
  | none => some (b.insert e.1 e.2)

/-- The mapping that binds what either binds, if they agree on what both bind. -/
def merge? (a b : Bindings) : Option Bindings := b.entries.foldlM addEntry? a

/-- The mapping as text, for reports. -/
def display (b : Bindings) : String :=
  "[" ++ ";".intercalate (b.entries.map fun e => e.1 ++ "=" ++ e.2.toSparql) ++ "]"

/-! ### Order -/

/-- Entry lists compare entry by entry, by name and then by term; a shorter one that agrees with the
start of a longer one comes first. -/
def orderEntries : List (String × Term) → List (String × Term) → Ordering
  | [], [] => .eq
  | [], _ :: _ => .lt
  | _ :: _, [] => .gt
  | a :: as, b :: bs =>
    (compare a.1 b.1).then ((compare a.2 b.2).then (orderEntries as bs))

instance : Ord Bindings := ⟨fun a b => orderEntries a.entries b.entries⟩

/-! ### Lookups in results -/

@[simp] theorem get?_empty (name : String) : (∅ : Bindings).get? name = none := rfl

@[simp] theorem get?_insert (b : Bindings) (name other : String) (term : Term) :
    (b.insert name term).get? other = if other = name then some term else b.get? other :=
  lookupEntry_insertEntry ..

theorem get?_restrict (b : Bindings) (keep : String → Bool) (name : String) :
    (b.restrict keep).get? name = if keep name then b.get? name else none := by
  show lookupEntry name (b.entries.filter _) =
    if keep name then lookupEntry name b.entries else none
  induction b.entries with
  | nil => simp [lookupEntry]
  | cons x rest ih => obtain ⟨n, t⟩ := x; grind [lookupEntry]

@[simp] theorem get?_project (b : Bindings) (vars : List String) (name : String) :
    (b.project vars).get? name = if name ∈ vars then b.get? name else none := by
  simp [project, get?_restrict]

/-- A mapping is determined by its lookups. -/
theorem ext_get? {a b : Bindings} (h : ∀ name, a.get? name = b.get? name) : a = b := by
  obtain ⟨as, ha⟩ := a
  obtain ⟨bs, hb⟩ := b
  have below : ∀ (n : String) (es : List (String × Term)), (∀ e ∈ es, n < e.1) →
      lookupEntry n es = none := by
    intro n es hes
    induction es with
    | nil => rfl
    | cons e rest ih =>
      obtain ⟨m, t⟩ := e
      have hlt : n < m := hes (m, t) List.mem_cons_self
      have hne : m ≠ n := fun heq => String.lt_irrefl n (heq ▸ hlt)
      simp only [lookupEntry, hne, if_false]
      exact ih fun e he => hes e (List.mem_cons_of_mem _ he)
  suffices as = bs by subst this; rfl
  induction as generalizing bs with
  | nil =>
    cases bs with
    | nil => rfl
    | cons e rest => simpa [get?, lookupEntry] using h e.1
  | cons x as ih =>
    obtain ⟨n, t⟩ := x
    have hax := List.pairwise_cons.1 ha
    cases bs with
    | nil => simpa [get?, lookupEntry] using h n
    | cons y bs =>
      obtain ⟨m, u⟩ := y
      have hby := List.pairwise_cons.1 hb
      have hn := h n
      have hm := h m
      simp only [get?, lookupEntry, if_true] at hn hm
      have hnm : n = m := by
        by_cases heq : n = m
        · exact heq
        · exfalso
          rcases String.le_total n m with hle | hle
          · have hlt : n < m := String.not_le.1 fun hle' => heq (String.le_antisymm hle hle')
            rw [if_neg (Ne.symm heq), below n bs fun e he => String.lt_trans hlt (hby.1 e he)] at hn
            simp at hn
          · have hlt : m < n := String.not_le.1 fun hle' => heq (String.le_antisymm hle' hle)
            rw [if_neg heq, below m as fun e he => String.lt_trans hlt (hax.1 e he)] at hm
            simp at hm
      subst hnm
      simp only [if_true, Option.some.injEq] at hn
      subst hn
      rw [ih hax.2 bs hby.2 ?_]
      intro k
      have hk := h k
      simp only [get?, lookupEntry] at hk ⊢
      by_cases hnk : n = k
      · subst hnk
        rw [below n as hax.1, below n bs hby.1]
      · simpa [hnk] using hk

end Bindings

end FederatedSparql
