import PrimaryElection.Roster

namespace PrimaryElection.Roster

variable {α β : Type}

theorem get?_filterMap (f : α → Option β) (r : Roster α) (key : Text) (b : β) :
    (r.filterMap f).get? key = some b ↔ ∃ a, r.get? key = some a ∧ f a = some b := by
  rw [get?_eq_some_iff]
  simp only [filterMap, List.mem_filterMap, Option.map_eq_some_iff, Prod.mk.injEq]
  constructor
  · rintro ⟨⟨k, a⟩, hmem, b', hb, rfl, rfl⟩
    exact ⟨a, (r.get?_eq_some_iff k a).mpr hmem, hb⟩
  · rintro ⟨a, ha, hb⟩
    exact ⟨(key, a), (r.get?_eq_some_iff key a).mp ha, b, hb, rfl, rfl⟩

theorem size_filterMap (f : α → Option β) (r : Roster α) :
    (r.filterMap f).size = r.values.countP fun a => (f a).isSome := by
  simp only [size, filterMap, values, List.length_filterMap_eq_countP, List.countP_map,
    Option.isSome_map]
  rfl

theorem get?_map_const (b : β) (r : Roster α) (key : Text) (b' : β) :
    (r.map fun _ => b).get? key = some b' ↔ key ∈ r.keys ∧ b = b' := by
  rw [map, get?_filterMap, ← contains_iff, contains, Option.isSome_iff_exists]
  constructor
  · rintro ⟨a, ha, hb⟩
    exact ⟨⟨a, ha⟩, Option.some.inj hb⟩
  · rintro ⟨⟨a, ha⟩, rfl⟩
    exact ⟨a, ha, rfl⟩

theorem get?_without (r : Roster α) (names : List Text) (key : Text) (a : α) :
    (r.without names).get? key = some a ↔ key ∉ names ∧ r.get? key = some a := by
  rw [get?_eq_some_iff, get?_eq_some_iff]
  simp [without, List.mem_filter, and_comm]

theorem get?_erase (r : Roster α) (name key : Text) (a : α) :
    (r.erase name).get? key = some a ↔ key ≠ name ∧ r.get? key = some a := by
  rw [get?_eq_some_iff, get?_eq_some_iff]
  simp [erase, List.mem_filter, and_comm]

theorem contains_insert (r : Roster α) (key other : Text) (value : α) :
    (r.insert key value).contains other = (decide (key = other) || r.contains other) := by
  unfold contains
  rw [get?_insert]
  by_cases h : key = other <;> simp [h]

theorem keys_erase (r : Roster α) (name : Text) : (r.erase name).keys = r.keys.filter (· != name) := by
  unfold keys
  rw [List.filter_map]
  rfl

theorem contains_erase (r : Roster α) (name key : Text) :
    (r.erase name).contains key = (key != name && r.contains key) := by
  rw [Bool.eq_iff_iff, contains_iff, keys_erase, List.mem_filter, ← contains_iff, Bool.and_eq_true,
    and_comm]

theorem mem_keys_of_get? {r : Roster α} {key : Text} {a : α} (h : r.get? key = some a) :
    key ∈ r.keys :=
  List.mem_map.mpr ⟨_, (r.get?_eq_some_iff key a).mp h, rfl⟩

theorem mem_values_iff {r : Roster α} {a : α} : a ∈ r.values ↔ ∃ key, r.get? key = some a := by
  simp only [values, List.mem_map, get?_eq_some_iff]
  constructor
  · rintro ⟨e, he, rfl⟩
    exact ⟨e.1, he⟩
  · rintro ⟨key, hkey⟩
    exact ⟨(key, a), hkey, rfl⟩

theorem put_of_not_mem {key : Text} {value : α} {l : List (Text × α)} (h : key ∉ l.map Prod.fst) :
    put key value l = l ++ [(key, value)] := by
  induction l with
  | nil => rfl
  | cons e rest ih =>
    obtain ⟨k, v⟩ := e
    simp only [List.map_cons, List.mem_cons, not_or] at h
    rw [put, if_neg (Ne.symm h.1), ih h.2, List.cons_append]

theorem entries_foldl_insert {r : Roster α} {pairs : List (Text × α)}
    (h : (r.keys ++ pairs.map Prod.fst).Nodup) :
    (pairs.foldl (fun r e => r.insert e.1 e.2) r).entries = r.entries ++ pairs := by
  induction pairs generalizing r with
  | nil => exact (List.append_nil _).symm
  | cons e rest ih =>
    have hnew : e.1 ∉ r.keys := by
      intro hmem
      exact (List.nodup_append.mp h).2.2 _ hmem _ List.mem_cons_self rfl
    have hinsert : (r.insert e.1 e.2).entries = r.entries ++ [e] := put_of_not_mem hnew
    have hkeys : (r.insert e.1 e.2).keys ++ rest.map Prod.fst = r.keys ++ (e :: rest).map Prod.fst := by
      rw [keys_insert, if_neg hnew, List.append_assoc]
      rfl
    rw [List.foldl_cons, ih (hkeys ▸ h), hinsert, List.append_assoc]
    rfl

theorem entries_ofList {pairs : List (Text × α)} (h : (pairs.map Prod.fst).Nodup) :
    (ofList pairs).entries = pairs := entries_foldl_insert h

theorem keys_ofList {pairs : List (Text × α)} (h : (pairs.map Prod.fst).Nodup) :
    (ofList pairs).keys = pairs.map Prod.fst := by
  rw [keys, entries_ofList h]

theorem none_missing_iff {r : Roster α} {entries : List (Text × β)} :
    (!((entries.map Prod.fst).filter fun key => !r.contains key).isEmpty) = false ↔
      ∀ e ∈ entries, r.contains e.1 = true := by
  rw [Bool.not_eq_false', List.isEmpty_iff, List.filter_eq_nil_iff, List.forall_mem_map]
  simp only [Bool.not_eq_true', Bool.not_eq_false]

theorem without_nil (r : Roster α) : r.without [] = r := by
  apply Roster.ext
  simp [without]

end PrimaryElection.Roster
