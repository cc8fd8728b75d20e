import Mathlib.Data.List.Induction
import Mathlib.Data.List.Nodup
import Mathlib.Data.List.Perm.Basic

/-! Finite maps as association lists, for values nested in an inductive type. A map is read by `List.lookup`; `put` and
`drop` assign and delete a key, and two maps are the same when they agree on every key, whatever the order of their
entries. -/

namespace Assoc

open List Option

variable {κ α : Type*} [DecidableEq κ]

def drop (m : List (κ × α)) (k : κ) : List (κ × α) := m.filter fun e => e.1 ≠ k

def put (m : List (κ × α)) (k : κ) (v : α) : List (κ × α) := drop m k ++ [(k, v)]

def has (m : List (κ × α)) (k : κ) : Bool := (m.lookup k).isSome

variable {k' : κ} {e : κ × α}

theorem lookup_cons {k : κ} {v : α} {m : List (κ × α)} :
    ((k', v) :: m).lookup k = if k = k' then some v else m.lookup k := by
  by_cases h : k = k'
  · subst h; simp
  · have hb : (k == k') = false := by simpa using h
    simp [List.lookup_cons, hb, h]

variable {m l : List (κ × α)} {v : α} {k : κ}

theorem mem_of_lookup (h : m.lookup k = some v) : (k, v) ∈ m := by
  induction m with
  | nil => cases h
  | cons e m ih =>
    rw [lookup_cons] at h
    split_ifs at h with hk
    · cases h
      simp [hk]
    · exact mem_cons_of_mem _ (ih h)

theorem lookup_append {m' : List (κ × α)} : (m ++ m').lookup k = (m.lookup k).or (m'.lookup k) := by
  induction m with
  | nil => rfl
  | cons e m ih =>
    rw [cons_append, lookup_cons, lookup_cons]
    split_ifs
    · rfl
    · exact ih

theorem lookup_drop : (drop m k').lookup k = if k = k' then none else m.lookup k := by
  induction m with
  | nil => simp [drop]
  | cons e m ih =>
    obtain ⟨a, v⟩ := e
    rw [drop] at ih ⊢
    rw [lookup_cons]
    by_cases ha : a = k'
    · subst ha
      rw [filter_cons_of_neg (by simp), ih]
      split_ifs <;> rfl
    rw [filter_cons_of_pos (by simpa using ha), lookup_cons, ih]
    split_ifs with h1 h2
    · exact absurd (h1.symm.trans h2) ha
    · rfl
    · rfl
    · rfl

theorem lookup_foldl_drop {ks : List κ} : (ks.foldl drop m).lookup k = if k ∈ ks then none else m.lookup k := by
  induction ks generalizing m with
  | nil => simp
  | cons a ks ih =>
    rw [foldl_cons, ih, lookup_drop]
    by_cases ha : k = a <;> simp [ha]

theorem lookup_filter (m : List (κ × α)) (keep : κ → Bool) (h : keep k = true) :
    (m.filter fun e => keep e.1).lookup k = m.lookup k := by
  induction m with
  | nil => rfl
  | cons e m ih =>
    obtain ⟨k', v⟩ := e
    by_cases hke : keep k' = true
    · rw [filter_cons_of_pos (by exact hke), lookup_cons, lookup_cons, ih]
    · have hne : k ≠ k' := fun heq => hke (heq ▸ h)
      rw [filter_cons_of_neg (by exact hke), lookup_cons, if_neg hne, ih]

theorem lookup_put : (put m k' v).lookup k = if k = k' then some v else m.lookup k := by
  rw [put, lookup_append, lookup_drop, lookup_cons]
  split_ifs
  · rfl
  · simp

theorem put_put {w : α} : put (put m k v) k w = put m k w := by
  simp [put, drop, filter_append]

theorem has_put : has (put m k' v) k = if k = k' then true else has m k := by
  rw [has, lookup_put]
  split_ifs <;> rfl

theorem has_drop : has (drop m k') k = if k = k' then false else has m k := by
  rw [has, lookup_drop]
  split_ifs <;> rfl

theorem of_mem_put (h : e ∈ put m k v) : e = (k, v) ∨ e ∈ m := by
  rcases mem_append.1 h with h | h
  · exact .inr (mem_filter.1 h).1
  · exact .inl (mem_singleton.1 h)

theorem mem_of_has (h : has m k = true) : ∃ v, (k, v) ∈ m := by
  obtain ⟨v, hv⟩ := isSome_iff_exists.1 h
  exact ⟨v, mem_of_lookup hv⟩

/-- The map of a list of entries assigned one after the other: the last value of a key counts. -/
def ofList (l : List (κ × α)) : List (κ × α) := l.foldl (fun m e => put m e.1 e.2) []

theorem ofList_snoc : ofList (l ++ [e]) = put (ofList l) e.1 e.2 := by
  rw [ofList, foldl_append]
  rfl

theorem mem_of_lookup_ofList (h : (ofList l).lookup k = some v) : (k, v) ∈ l := by
  induction l using reverseRecOn with
  | nil => simp [ofList] at h
  | append_singleton l e ih =>
    rw [ofList_snoc, lookup_put] at h
    split_ifs at h with hk
    · cases h
      simp [hk]
    · exact mem_append_left _ (ih h)

theorem exists_lookup_ofList (h : k ∈ l.map Prod.fst) : ∃ v, (ofList l).lookup k = some v := by
  induction l using reverseRecOn with
  | nil => simp at h
  | append_singleton l e ih =>
    rw [ofList_snoc, lookup_put]
    split_ifs with hk
    · exact ⟨e.2, rfl⟩
    · refine ih ?_
      simpa [hk] using h

/-- Where no key is assigned twice, the map has exactly the entries of the list. -/
theorem lookup_ofList (hno : (l.map Prod.fst).Nodup) : (ofList l).lookup k = some v ↔ (k, v) ∈ l := by
  induction l using reverseRecOn with
  | nil => simp [ofList]
  | append_singleton l e ih =>
    obtain ⟨k', v'⟩ := e
    rw [map_append, nodup_append] at hno
    obtain ⟨hl, -, hnew⟩ := hno
    rw [ofList_snoc, lookup_put, mem_append, mem_singleton, Prod.mk.injEq]
    by_cases hk : k = k'
    · subst hk
      have hold : (k, v) ∉ l := fun hmem => hnew k (mem_map_of_mem hmem) k (by simp) rfl
      simp [hold, eq_comm]
    · simp [hk, ih hl]

theorem ofList_eq_self (hno : (l.map Prod.fst).Nodup) : ofList l = l := by
  induction l using reverseRecOn with
  | nil => rfl
  | append_singleton l e ih =>
    rw [map_append, nodup_append] at hno
    have hnew : ∀ e' ∈ l, e'.1 ≠ e.1 := fun e' he' => hno.2.2 _ (mem_map_of_mem he') _ (by simp)
    rw [ofList_snoc, ih hno.1, put, drop, filter_eq_self.2 (by simpa using hnew)]

theorem lookup_map {β : Type*} {f : κ × α → β} :
    (l.map fun e => (e.1, f e)).lookup k = (l.lookup k).map fun v => f (k, v) := by
  induction l with
  | nil => rfl
  | cons e l ih =>
    rw [map_cons, lookup_cons, lookup_cons, ih]
    split_ifs with h
    · rw [h]
      rfl
    · rfl

/-- A map with one entry for each key, so that its size is the number of its keys. -/
structure Map (κ α : Type*) where
  entries : List (κ × α) := []
  distinct : (entries.map Prod.fst).Nodup := by exact List.nodup_nil
  deriving DecidableEq

namespace Map

variable {keep : κ × α → Bool} {k' : κ} {m : Map κ α}

omit [DecidableEq κ] in
theorem nodup_filter (h : (l.map Prod.fst).Nodup) : ((l.filter keep).map Prod.fst).Nodup := h.sublist (filter_sublist.map _)

def get (m : Map κ α) (k : κ) : Option α := m.entries.lookup k

def size (m : Map κ α) : Nat := m.entries.length

def put (m : Map κ α) (k : κ) (v : α) : Map κ α where
  entries := Assoc.put m.entries k v
  distinct := by
    rw [Assoc.put, List.map_append, List.nodup_append]
    refine ⟨nodup_filter m.distinct, List.nodup_singleton _, ?_⟩
    intro a ha b hb
    obtain ⟨e, he, rfl⟩ := List.mem_map.1 ha
    obtain rfl : b = k := by simpa using hb
    simpa using (List.mem_filter.1 he).2

def filter (m : Map κ α) (keep : κ × α → Bool) : Map κ α := ⟨m.entries.filter keep, nodup_filter m.distinct⟩

/-- The entry of the key moves to the front, with a new value. -/
def putFront (m : Map κ α) (k : κ) (v : α) : Map κ α where
  entries := (k, v) :: Assoc.drop m.entries k
  distinct := by
    rw [List.map_cons, List.nodup_cons]
    refine ⟨fun hk => ?_, nodup_filter m.distinct⟩
    obtain ⟨e, he, rfl⟩ := List.mem_map.1 hk
    simpa using (List.mem_filter.1 he).2

def dropLast (m : Map κ α) : Map κ α :=
  ⟨m.entries.dropLast, m.distinct.sublist ((List.dropLast_sublist _).map _)⟩

theorem of_mem_put (h : e ∈ (m.put k v).entries) : e = (k, v) ∨ e ∈ m.entries := Assoc.of_mem_put h

theorem get_put : (m.put k' v).get k = if k = k' then some v else m.get k := lookup_put

theorem get_putFront : (m.putFront k' v).get k = if k = k' then some v else m.get k := by
  rw [get, putFront, lookup_cons, lookup_drop]
  split_ifs <;> rfl

theorem get_filter_ne : (m.filter fun e => e.1 ≠ k').get k = if k = k' then none else m.get k := lookup_drop

theorem lookup_filter_of_nodup (h : (l.map Prod.fst).Nodup) :
    (l.filter keep).lookup k = (l.lookup k).filter fun v => keep (k, v) := by
  induction l with
  | nil => rfl
  | cons e l ih =>
    obtain ⟨k', v⟩ := e
    rw [map_cons, nodup_cons] at h
    rw [lookup_cons]
    by_cases hk : k = k'
    · subst hk
      -- the rest of the list has no other entry for the key
      have hn : (l.filter keep).lookup k = none := by
        rw [ih h.2, filter_eq_none_iff]
        intro w hw
        exact absurd (mem_map_of_mem (mem_of_lookup hw)) h.1
      rw [if_pos rfl]
      by_cases hke : keep (k, v) = true
      · rw [filter_cons_of_pos hke, lookup_cons, if_pos rfl, filter_some, if_pos hke]
      · rw [filter_cons_of_neg hke, hn, filter_some, if_neg hke]
    · rw [if_neg hk, ← ih h.2]
      by_cases hke : keep (k', v) = true
      · rw [filter_cons_of_pos hke, lookup_cons, if_neg hk]
      · rw [filter_cons_of_neg hke]

theorem get_filter : (m.filter keep).get k = (m.get k).filter fun v => keep (k, v) :=
  lookup_filter_of_nodup m.distinct

omit [DecidableEq κ] in
theorem size_filter_le (m : Map κ α) (keep : κ × α → Bool) : (m.filter keep).size ≤ m.size := length_filter_le _ _

end Map
end Assoc

/-! Lists read by a key. The entry of a key is the first element that has it; in a list in which no two
elements share a key, it is the member with that key, whatever the order of the list. -/

namespace Keyed

open List

variable {α κ : Type*} [BEq κ] [LawfulBEq κ] {key : α → κ} {l l' : List α} {k : κ}

def entry (key : α → κ) (l : List α) (k : κ) : Option α := l.find? fun a => key a == k

theorem entry_eq_none : entry key l k = none ↔ k ∉ l.map key := by
  simp [entry]

theorem of_entry {a : α} (h : entry key l k = some a) : a ∈ l ∧ key a = k :=
  ⟨mem_of_find?_eq_some h, by simpa using find?_some h⟩

theorem entry_eq_some (hno : (l.map key).Nodup) {a : α} : entry key l k = some a ↔ a ∈ l ∧ key a = k := by
  constructor
  · exact of_entry
  rintro ⟨hmem, rfl⟩
  cases h : entry key l (key a) with
  | none => exact absurd (mem_map_of_mem hmem) (entry_eq_none.1 h)
  | some b =>
    obtain ⟨hb, hkey⟩ := of_entry h
    exact congrArg some (inj_on_of_nodup_map hno hb hmem hkey)

omit [LawfulBEq κ] in
theorem entry_append : entry key (l ++ l') k = (entry key l k).or (entry key l' k) := find?_append

theorem entry_perm (hno : (l.map key).Nodup) (hpe : l.Perm l') : entry key l k = entry key l' k := by
  refine Option.ext fun a => ?_
  rw [entry_eq_some hno, entry_eq_some ((hpe.map key).nodup_iff.1 hno), hpe.mem_iff]

end Keyed
