import Hostility.Entity.Basic

/-!
Finite maps from entities, kept as lists in entity order. A map is looked at through `get?`: every
operation has one equation for it, and two maps that agree on every entity are equal.
-/
namespace Hostility

/-- A finite map from entities to `α`, listed in entity order. -/
structure EntityMap (α : Type) where
  entries : List (Entity × α)
  sorted : entries.Pairwise (·.1 < ·.1)

namespace EntityMap

variable {α β : Type}

instance [DecidableEq α] : DecidableEq (EntityMap α) := fun m n =>
  if h : m.entries = n.entries then
    isTrue (by cases m; cases n; simp at h; subst h; rfl)
  else
    isFalse (fun e => h (congrArg entries e))

def empty : EntityMap α := ⟨[], .nil⟩

instance : EmptyCollection (EntityMap α) := ⟨empty⟩

instance : Inhabited (EntityMap α) := ⟨empty⟩

def lookup (e : Entity) : List (Entity × α) → Option α
  | [] => none
  | (k, v) :: rest => if k = e then some v else lookup e rest

def get? (m : EntityMap α) (e : Entity) : Option α := lookup e m.entries

def contains (m : EntityMap α) (e : Entity) : Bool := (m.get? e).isSome

def keys (m : EntityMap α) : List Entity := m.entries.map (·.1)

def values (m : EntityMap α) : List α := m.entries.map (·.2)

def size (m : EntityMap α) : Nat := m.entries.length

def isEmpty (m : EntityMap α) : Bool := m.entries.isEmpty

/-- Puts `v` at the place of `e`, instead of what was there. -/
def insertEntry (e : Entity) (v : α) : List (Entity × α) → List (Entity × α)
  | [] => [(e, v)]
  | (k, w) :: rest =>
    if e < k then (e, v) :: (k, w) :: rest
    else if e = k then (e, v) :: rest
    else (k, w) :: insertEntry e v rest

theorem mem_insertEntry {e : Entity} {v : α} {l : List (Entity × α)} {p : Entity × α}
    (h : p ∈ insertEntry e v l) : p = (e, v) ∨ p ∈ l := by
  induction l with
  | nil => simpa [insertEntry] using h
  | cons a l ih => grind [insertEntry]

theorem sorted_insertEntry {e : Entity} {v : α} {l : List (Entity × α)}
    (h : l.Pairwise (·.1 < ·.1)) : (insertEntry e v l).Pairwise (·.1 < ·.1) := by
  induction l with
  | nil => simp [insertEntry]
  | cons a l ih =>
    obtain ⟨k, w⟩ := a
    rw [List.pairwise_cons] at h
    simp only [insertEntry]
    split
    · rename_i hek
      refine List.pairwise_cons.2 ⟨fun b hb => ?_, List.pairwise_cons.2 h⟩
      rcases List.mem_cons.1 hb with rfl | hb
      · exact hek
      · exact Entity.lt_trans hek (h.1 b hb)
    · split
      · rename_i hek
        subst hek
        exact List.pairwise_cons.2 ⟨h.1, h.2⟩
      · rename_i hlt hne
        refine List.pairwise_cons.2 ⟨fun b hb => ?_, ih h.2⟩
        rcases mem_insertEntry hb with rfl | hb
        · exact Entity.lt_of_not_lt hlt hne
        · exact h.1 b hb

def insert (m : EntityMap α) (e : Entity) (v : α) : EntityMap α :=
  ⟨insertEntry e v m.entries, sorted_insertEntry m.sorted⟩

def filter (m : EntityMap α) (p : Entity → α → Bool) : EntityMap α :=
  ⟨m.entries.filter fun a => p a.1 a.2, m.sorted.filter _⟩

def erase (m : EntityMap α) (e : Entity) : EntityMap α := m.filter fun k _ => !decide (k = e)

def map (m : EntityMap α) (f : Entity → α → β) : EntityMap β :=
  ⟨m.entries.map fun a => (a.1, f a.1 a.2), by
    rw [List.pairwise_map]; exact m.sorted⟩

/-- Collects pairs in order; of two with one entity the later stays. -/
def ofList (l : List (Entity × α)) : EntityMap α :=
  l.foldl (fun m a => m.insert a.1 a.2) empty

@[simp] theorem get?_empty (e : Entity) : (empty : EntityMap α).get? e = none := rfl

theorem lookup_insertEntry (e k : Entity) (v : α) (l : List (Entity × α)) :
    lookup k (insertEntry e v l) = if e = k then some v else lookup k l := by
  induction l with
  | nil => rfl
  | cons a l ih => grind [insertEntry, lookup]

@[simp] theorem get?_insert (m : EntityMap α) (e k : Entity) (v : α) :
    (m.insert e v).get? k = if e = k then some v else m.get? k :=
  lookup_insertEntry e k v m.entries

theorem lookup_map (f : Entity → α → β) (e : Entity) (l : List (Entity × α)) :
    lookup e (l.map fun a => (a.1, f a.1 a.2)) = (lookup e l).map (f e) := by
  induction l with
  | nil => rfl
  | cons a l ih => grind [lookup]

@[simp] theorem get?_map (m : EntityMap α) (f : Entity → α → β) (e : Entity) :
    (m.map f).get? e = (m.get? e).map (f e) :=
  lookup_map f e m.entries

theorem lookup_eq_none_of_forall {e : Entity} {l : List (Entity × α)}
    (h : ∀ a ∈ l, a.1 ≠ e) : lookup e l = none := by
  induction l with
  | nil => rfl
  | cons a l ih => grind [lookup]

theorem lookup_filter (p : Entity → α → Bool) (e : Entity) {l : List (Entity × α)}
    (h : l.Pairwise (·.1 < ·.1)) :
    lookup e (l.filter fun a => p a.1 a.2) = (lookup e l).filter (p e) := by
  induction l with
  | nil => rfl
  | cons a l ih =>
    obtain ⟨k, v⟩ := a
    rw [List.pairwise_cons] at h
    have ih := ih h.2
    by_cases hk : k = e
    · subst hk
      have hn : lookup k l = none :=
        lookup_eq_none_of_forall fun b hb => (Entity.ne_of_lt (h.1 b hb)).symm
      by_cases hp : p k v
      · simp [lookup, hp, Option.filter]
      · simp [hp, ih, hn, lookup, Option.filter]
    · by_cases hp : p k v <;> simp [lookup, hk, hp, ih]

@[simp] theorem get?_filter (m : EntityMap α) (p : Entity → α → Bool) (e : Entity) :
    (m.filter p).get? e = (m.get? e).filter (p e) :=
  lookup_filter p e m.sorted

@[simp] theorem get?_erase (m : EntityMap α) (e k : Entity) :
    (m.erase e).get? k = if k = e then none else m.get? k := by
  rw [erase, get?_filter]
  by_cases h : k = e <;> cases m.get? k <;> simp [h, Option.filter]

theorem lookup_eq_some_iff {e : Entity} {v : α} {l : List (Entity × α)}
    (h : l.Pairwise (·.1 < ·.1)) : lookup e l = some v ↔ (e, v) ∈ l := by
  induction l with
  | nil => simp [lookup]
  | cons a l ih =>
    obtain ⟨k, w⟩ := a
    rw [List.pairwise_cons] at h
    by_cases hk : k = e
    · subst hk
      have hn : (k, v) ∉ l := fun hm => Entity.lt_irrefl k (h.1 _ hm)
      simp [lookup, hn, eq_comm]
    · simp [lookup, hk, ih h.2, Ne.symm hk]

theorem get?_eq_some_iff {m : EntityMap α} {e : Entity} {v : α} :
    m.get? e = some v ↔ (e, v) ∈ m.entries :=
  lookup_eq_some_iff m.sorted

theorem mem_keys {m : EntityMap α} {e : Entity} : e ∈ m.keys ↔ (m.get? e).isSome := by
  rw [Option.isSome_iff_exists]
  simp only [get?_eq_some_iff, keys, List.mem_map]
  exact ⟨fun ⟨a, ha, he⟩ => ⟨a.2, he ▸ ha⟩, fun ⟨v, hv⟩ => ⟨_, hv, rfl⟩⟩

theorem keys_sorted (m : EntityMap α) : m.keys.Pairwise (· < ·) := by
  rw [keys, List.pairwise_map]; exact m.sorted

theorem contains_insert {m : EntityMap α} {e k : Entity} {v : α} :
    (m.insert e v).contains k = true ↔ e = k ∨ m.contains k = true := by
  rw [contains, get?_insert, contains]
  split <;> simp [*]

theorem contains_foldl_insert {m : EntityMap α} {l : List (Entity × α)} {e : Entity} :
    (l.foldl (fun m a => m.insert a.1 a.2) m).contains e = true ↔
      e ∈ l.map (·.1) ∨ m.contains e = true := by
  induction l generalizing m with
  | nil => simp
  | cons a rest ih =>
    rw [List.foldl_cons, ih, contains_insert, List.map_cons, List.mem_cons]
    grind

theorem contains_ofList {l : List (Entity × α)} {e : Entity} :
    (ofList l).contains e = true ↔ e ∈ l.map (·.1) := by
  rw [ofList, contains_foldl_insert, or_iff_left]
  simp [contains]

/-- A list in entity order is determined by its members. -/
theorem sorted_ext {l₁ l₂ : List (Entity × α)} (h₁ : l₁.Pairwise (·.1 < ·.1))
    (h₂ : l₂.Pairwise (·.1 < ·.1)) (h : ∀ e, lookup e l₁ = lookup e l₂) : l₁ = l₂ := by
  induction l₁ generalizing l₂ with
  | nil =>
    cases l₂ with
    | nil => rfl
    | cons b l₂ => have := h b.1; simp [lookup] at this
  | cons a l₁ ih =>
    cases l₂ with
    | nil => have := h a.1; simp [lookup] at this
    | cons b l₂ =>
      obtain ⟨k, v⟩ := a
      obtain ⟨k', v'⟩ := b
      rw [List.pairwise_cons] at h₁ h₂
      have hk : k = k' := by
        apply Classical.byContradiction
        intro hne
        by_cases hlt : k < k'
        · have := h k
          simp only [lookup, if_true, if_neg (Ne.symm hne)] at this
          have hm := (lookup_eq_some_iff h₂.2).1 this.symm
          exact Entity.lt_asymm hlt (h₂.1 _ hm)
        · have hgt := Entity.lt_of_not_lt hlt hne
          have := h k'
          simp only [lookup, if_true, if_neg hne] at this
          have hm := (lookup_eq_some_iff h₁.2).1 this
          exact Entity.lt_asymm hgt (h₁.1 _ hm)
      subst hk
      have hv : v = v' := by have := h k; simpa [lookup] using this
      subst hv
      congr 1
      refine ih h₁.2 h₂.2 fun e => ?_
      by_cases he : k = e
      · subst he
        rw [lookup_eq_none_of_forall fun b hb => (Entity.ne_of_lt (h₁.1 b hb)).symm,
          lookup_eq_none_of_forall fun b hb => (Entity.ne_of_lt (h₂.1 b hb)).symm]
      · have := h e; simpa [lookup, he] using this

@[ext] theorem ext {m n : EntityMap α} (h : ∀ e, m.get? e = n.get? e) : m = n := by
  obtain ⟨l, hl⟩ := m
  obtain ⟨l', hl'⟩ := n
  have : l = l' := sorted_ext hl hl' h
  subst this
  rfl

end EntityMap

abbrev EntitySet := EntityMap Unit

namespace EntitySet

def add (s : EntitySet) (e : Entity) : EntitySet := EntityMap.insert s e ()

theorem contains_add (s : EntitySet) (e k : Entity) :
    (EntityMap.contains (add s e) k) = (decide (e = k) || EntityMap.contains s k) := by
  by_cases h : e = k <;> simp [add, EntityMap.contains, h]

end EntitySet

end Hostility
