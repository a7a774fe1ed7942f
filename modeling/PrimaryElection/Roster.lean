import PrimaryElection.Text

namespace PrimaryElection

structure Roster (α : Type) where
  entries : List (Text × α)
  nodup : (entries.map Prod.fst).Nodup

namespace Roster

variable {α β : Type}

def lookup (key : Text) : List (Text × α) → Option α
  | [] => none
  | (k, v) :: rest => if k = key then some v else lookup key rest

def put (key : Text) (value : α) : List (Text × α) → List (Text × α)
  | [] => [(key, value)]
  | (k, v) :: rest => if k = key then (key, value) :: rest else (k, v) :: put key value rest

theorem map_fst_put (key : Text) (value : α) (l : List (Text × α)) :
    (put key value l).map Prod.fst =
      if key ∈ l.map Prod.fst then l.map Prod.fst else l.map Prod.fst ++ [key] := by
  induction l with
  | nil => rfl
  | cons e rest ih =>
    obtain ⟨k, v⟩ := e
    by_cases h : k = key
    · simp [put, h]
    · have h' : ¬ key = k := fun e => h e.symm
      by_cases hm : key ∈ rest.map Prod.fst
      · simp only [put, h, if_false, List.map_cons, ih, hm, if_true, List.mem_cons, or_true]
      · simp [put, h, h', hm, ih]

theorem nodup_put {key : Text} {value : α} {l : List (Text × α)}
    (h : (l.map Prod.fst).Nodup) : ((put key value l).map Prod.fst).Nodup := by
  rw [map_fst_put]
  split
  · exact h
  · rename_i hm
    rw [List.nodup_append]
    exact ⟨h, by simp, fun a ha b hb => by simp at hb; subst hb; exact fun e => hm (e ▸ ha)⟩

theorem nodup_filter {p : Text × α → Bool} {l : List (Text × α)}
    (h : (l.map Prod.fst).Nodup) : ((l.filter p).map Prod.fst).Nodup :=
  h.sublist (List.filter_sublist.map _)

theorem nodup_filterMap {f : α → Option β} {l : List (Text × α)}
    (h : (l.map Prod.fst).Nodup) :
    ((l.filterMap fun e => (f e.2).map (e.1, ·)).map Prod.fst).Nodup := by
  induction l with
  | nil => simp
  | cons e rest ih =>
    simp only [List.map_cons, List.nodup_cons] at h
    cases hf : f e.2 with
    | none => simpa [List.filterMap_cons, hf] using ih h.2
    | some b =>
      simp only [List.filterMap_cons, hf, Option.map_some, List.map_cons, List.nodup_cons]
      refine ⟨fun hm => h.1 ?_, ih h.2⟩
      simp only [List.mem_map, List.mem_filterMap] at hm ⊢
      obtain ⟨x, ⟨y, hy, hx⟩, hxe⟩ := hm
      cases hy' : f y.2 with
      | none => simp [hy'] at hx
      | some c =>
        simp only [hy', Option.map_some, Option.some.injEq] at hx
        exact ⟨y, hy, by rw [← hxe, ← hx]⟩

def empty : Roster α := ⟨[], by simp⟩

instance : Inhabited (Roster α) := ⟨empty⟩

instance : EmptyCollection (Roster α) := ⟨empty⟩

def keys (r : Roster α) : List Text := r.entries.map Prod.fst

def values (r : Roster α) : List α := r.entries.map Prod.snd

def size (r : Roster α) : Nat := r.entries.length

def isEmpty (r : Roster α) : Bool := r.entries.isEmpty

def get? (r : Roster α) (key : Text) : Option α := lookup key r.entries

def contains (r : Roster α) (key : Text) : Bool := (r.get? key).isSome

def insert (r : Roster α) (key : Text) (value : α) : Roster α :=
  ⟨put key value r.entries, nodup_put r.nodup⟩

def erase (r : Roster α) (key : Text) : Roster α :=
  ⟨r.entries.filter (·.1 != key), nodup_filter r.nodup⟩

def dropFirst (r : Roster α) : Roster α :=
  ⟨r.entries.tail, r.nodup.sublist (r.entries.tail_sublist.map _)⟩

def ofList (pairs : List (Text × α)) : Roster α :=
  pairs.foldl (fun r e => r.insert e.1 e.2) empty

def filterMap (f : α → Option β) (r : Roster α) : Roster β :=
  ⟨r.entries.filterMap fun e => (f e.2).map (e.1, ·), nodup_filterMap r.nodup⟩

def map (f : α → β) (r : Roster α) : Roster β := r.filterMap (some ∘ f)

def without (r : Roster α) (names : List Text) : Roster α :=
  ⟨r.entries.filter fun e => !names.contains e.1, nodup_filter r.nodup⟩

@[ext] theorem ext {r s : Roster α} (h : r.entries = s.entries) : r = s := by
  cases r
  cases s
  simp_all

theorem lookup_isSome_iff (key : Text) (l : List (Text × α)) :
    (lookup key l).isSome = true ↔ key ∈ l.map Prod.fst := by
  induction l with
  | nil => simp [lookup]
  | cons e rest ih =>
    obtain ⟨k, v⟩ := e
    by_cases h : k = key
    · simp [lookup, h]
    · have h' : ¬ key = k := fun e => h e.symm
      simp only [lookup, h, if_false, ih, List.map_cons, List.mem_cons, h', false_or]

theorem contains_iff (r : Roster α) (key : Text) : r.contains key = true ↔ key ∈ r.keys :=
  lookup_isSome_iff key r.entries

theorem get?_eq_none_iff (r : Roster α) (key : Text) : r.get? key = none ↔ key ∉ r.keys := by
  rw [← contains_iff, contains]
  cases r.get? key <;> simp

theorem lookup_put (key other : Text) (value : α) (l : List (Text × α)) :
    lookup other (put key value l) = if key = other then some value else lookup other l := by
  induction l with
  | nil => rfl
  | cons e rest ih =>
    obtain ⟨k, v⟩ := e
    by_cases h : k = key
    · subst h
      by_cases ho : k = other <;> simp [put, lookup, ho]
    · by_cases ho : k = other
      · subst ho
        have h' : ¬ key = k := fun e => h e.symm
        simp [put, lookup, h, h']
      · simp [put, lookup, h, ho, ih]

@[simp] theorem get?_empty (key : Text) : (empty : Roster α).get? key = none := rfl

theorem get?_insert (r : Roster α) (key other : Text) (value : α) :
    (r.insert key value).get? other = if key = other then some value else r.get? other :=
  lookup_put key other value r.entries

theorem keys_insert (r : Roster α) (key : Text) (value : α) :
    (r.insert key value).keys = if key ∈ r.keys then r.keys else r.keys ++ [key] :=
  map_fst_put key value r.entries

theorem keys_map (f : α → β) (r : Roster α) : (r.map f).keys = r.keys := by
  simp only [keys, map, filterMap, Function.comp, Option.map_some, List.filterMap_eq_map', List.map_map]
  rfl

theorem lookup_eq_some_iff {key : Text} {value : α} {l : List (Text × α)}
    (h : (l.map Prod.fst).Nodup) : lookup key l = some value ↔ (key, value) ∈ l := by
  induction l with
  | nil => simp [lookup]
  | cons e rest ih =>
    obtain ⟨k, v⟩ := e
    simp only [List.map_cons, List.nodup_cons] at h
    by_cases hk : k = key
    · subst hk
      have hn : (k, value) ∉ rest := fun hm => h.1 (List.mem_map.mpr ⟨_, hm, rfl⟩)
      simp [lookup, hn, eq_comm]
    · have hk' : ¬ key = k := fun e => hk e.symm
      simp [lookup, hk, hk', ih h.2]

theorem get?_eq_some_iff (r : Roster α) (key : Text) (value : α) :
    r.get? key = some value ↔ (key, value) ∈ r.entries :=
  lookup_eq_some_iff r.nodup

end Roster

end PrimaryElection
