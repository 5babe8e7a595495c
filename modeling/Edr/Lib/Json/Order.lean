import Edr.Lib.Json

/-!
# Values up to the order of their keys

Two objects are equal for Python when they have the same members, in whatever order, and so are two
values that differ in such objects only: one is a `Reordered` form of the other.

* `get?_setMember_self`, `get?_setMember_of_ne`: what is looked up after a member has been set.
-/

namespace Edr.Json

open List Function

variable {F : Type}

inductive Reordered : Json F → Json F → Prop
  | refl (v : Json F) : Reordered v v
  | trans {u v w : Json F} : Reordered u v → Reordered v w → Reordered u w
  | item (before after : List (Json F)) {v w : Json F} :
    Reordered v w → Reordered (.array (before ++ v :: after)) (.array (before ++ w :: after))
  | member (before after : List (Text × Json F)) (key : Text) {v w : Json F} :
    Reordered v w →
      Reordered (.object (before ++ (key, v) :: after)) (.object (before ++ (key, w) :: after))
  | perm {members members' : List (Text × Json F)} :
    members.Perm members' → Reordered (.object members) (.object members')

/-! ## Sorting the keys -/

variable {members : List (Text × Json F)}

theorem sortMembers_eq_of_perm {members' : List (Text × Json F)} (h : members.Perm members')
    (hkeys : (members.map (·.1)).Nodup) : sortMembers members = sortMembers members' := by
  have hsorted (l : List (Text × Json F)) :
      (sortMembers l).Pairwise fun m m' => m.1 ≤ m'.1 :=
    pairwise_insertionSort _ _
  refine List.Perm.eq_of_pairwise ?_ (hsorted members) (hsorted members')
    (((sortMembers_perm members).trans h).trans (sortMembers_perm members').symm)
  intro m m' hm hm' hle hge
  rw [(sortMembers_perm members).mem_iff] at hm
  rw [(sortMembers_perm members').mem_iff, ← h.mem_iff] at hm'
  exact inj_on_of_nodup_map hkeys hm hm' (le_antisymm hle hge)

theorem distinct_object :
    (object members).distinct ↔
      (members.map (·.1)).Nodup ∧ ∀ m ∈ members, m.2.distinct := by
  rw [distinct, all_object, Bool.and_eq_true, decide_eq_true_eq, all_eq_true]
  simp only [Bool.true_and]
  rfl

theorem distinct_array {items : List (Json F)} :
    (array items).distinct ↔ ∀ v ∈ items, v.distinct := by
  rw [distinct, all_array, all_eq_true]
  rfl

variable {v w : Json F}

theorem Reordered.spec (h : Reordered v w) (hdistinct : v.distinct) :
    w.distinct ∧ v.canon = w.canon := by
  induction h with
  | refl v => exact ⟨hdistinct, rfl⟩
  | trans _ _ ihv ihw =>
    obtain ⟨hv, hcanon⟩ := ihv hdistinct
    obtain ⟨hw, hcanon'⟩ := ihw hv
    exact ⟨hw, hcanon.trans hcanon'⟩
  | item before after _ ih =>
    rw [distinct_array, forall_mem_append, forall_mem_cons] at hdistinct ⊢
    obtain ⟨hbefore, hv, hafter⟩ := hdistinct
    refine ⟨⟨hbefore, (ih hv).1, hafter⟩, ?_⟩
    simp only [canon_array, map_append, map_cons, (ih hv).2]
  | member before after key _ ih =>
    rw [distinct_object, forall_mem_append, forall_mem_cons] at hdistinct ⊢
    obtain ⟨hkeys, hbefore, hv, hafter⟩ := hdistinct
    refine ⟨⟨?_, hbefore, (ih hv).1, hafter⟩, ?_⟩
    · simpa only [map_append, map_cons] using hkeys
    · simp only [canon_object, map_append, map_cons, (ih hv).2]
  | perm hperm =>
    rw [distinct_object] at hdistinct ⊢
    refine ⟨⟨(hperm.map _).nodup_iff.1 hdistinct.1, fun m hm => ?_⟩, ?_⟩
    · exact hdistinct.2 m (hperm.mem_iff.2 hm)
    · rw [canon_object, canon_object, sortMembers_eq_of_perm (hperm.map _)]
      rw [map_map]
      exact hdistinct.1

theorem Reordered.canon_eq (h : Reordered v w) (hdistinct : v.distinct) : v.canon = w.canon :=
  (h.spec hdistinct).2

theorem reordered_map_items {f : Json F → Json F} (before items : List (Json F))
    (h : ∀ v ∈ items, Reordered v (f v)) :
    Reordered (.array (before ++ items)) (.array (before ++ items.map f)) := by
  induction items generalizing before with
  | nil => exact .refl _
  | cons v items ih =>
    obtain ⟨hv, hitems⟩ := forall_mem_cons.1 h
    refine .trans (.item before items hv) ?_
    have hrest := ih (before ++ [f v]) hitems
    rwa [append_assoc, append_assoc] at hrest

theorem reordered_map_members {f : Json F → Json F} (before members : List (Text × Json F))
    (h : ∀ m ∈ members, Reordered m.2 (f m.2)) :
    Reordered (.object (before ++ members))
      (.object (before ++ members.map fun m => (m.1, f m.2))) := by
  induction members generalizing before with
  | nil => exact .refl _
  | cons m members ih =>
    obtain ⟨hm, hmembers⟩ := forall_mem_cons.1 h
    refine .trans (.member before members m.1 hm) ?_
    have hrest := ih (before ++ [(m.1, f m.2)]) hmembers
    rwa [append_assoc, append_assoc] at hrest

theorem reordered_canon (v : Json F) : Reordered v v.canon := by
  induction v using recMem with
  | null | bool | int | float | string => exact .refl _
  | array items ih =>
    rw [canon_array]
    exact reordered_map_items [] items ih
  | object members ih =>
    rw [canon_object]
    exact (reordered_map_members [] members ih).trans (.perm (sortMembers_perm _).symm)

theorem sortMembers_of_sorted (h : (members.map (·.1)).Pairwise (· ≤ ·)) :
    sortMembers members = members :=
  (pairwise_map.1 h).insertionSort_eq

/-! ## Members -/

def get? (v : Json F) (key : Text) : Option (Json F) :=
  match v with
  | .object members => (members.find? fun m => m.1 = key).map (·.2)
  | .null | .bool _ | .int _ | .float _ | .string _ | .array _ => none

theorem get?_object_eq_some (hkeys : (members.map (·.1)).Nodup) {key : Text} :
    (object members).get? key = some v ↔ (key, v) ∈ members := by
  rw [get?, Option.map_eq_some_iff]
  constructor
  · rintro ⟨⟨key', v'⟩, hfind, rfl⟩
    have hkey : key' = key := by simpa using find?_some hfind
    exact hkey ▸ mem_of_find?_eq_some hfind
  · intro hmem
    obtain ⟨m, hm⟩ : ∃ m, members.find? (fun m => m.1 = key) = some m :=
      Option.isSome_iff_exists.1 (find?_isSome.2 ⟨_, hmem, decide_eq_true rfl⟩)
    have hkey : m.1 = key := by simpa using find?_some hm
    refine ⟨m, hm, ?_⟩
    rw [inj_on_of_nodup_map hkeys (mem_of_find?_eq_some hm) hmem hkey]

theorem get?_canon (hdistinct : v.distinct) (key : Text) :
    v.canon.get? key = (v.get? key).map canon := by
  cases v with
  | null | bool | int | float | string => rfl
  | array items => rw [canon_array]; rfl
  | object members =>
    have hkeys := (distinct_object.1 hdistinct).1
    have hcanon : (object members).canon.distinct := (distinct_canon _).trans hdistinct
    rw [canon_object] at hcanon ⊢
    have hsorted := (distinct_object.1 hcanon).1
    ext w
    rw [get?_object_eq_some hsorted, (sortMembers_perm _).mem_iff, mem_map,
      Option.map_eq_some_iff]
    constructor
    · rintro ⟨⟨key', v⟩, hmem, heq⟩
      obtain ⟨rfl, rfl⟩ := Prod.mk.inj heq
      exact ⟨v, (get?_object_eq_some hkeys).2 hmem, rfl⟩
    · rintro ⟨v, hget, rfl⟩
      exact ⟨_, (get?_object_eq_some hkeys).1 hget, rfl⟩

theorem distinct_of_get? {key : Text} (hdistinct : v.distinct) (h : v.get? key = some w) :
    w.distinct := by
  cases v with
  | null | bool | int | float | string | array => cases h
  | object members =>
    have hobject := distinct_object.1 hdistinct
    exact hobject.2 _ ((get?_object_eq_some hobject.1).1 h)

/-! ## Setting a member -/

def replaceValue (key : Text) (value : Json F) (m : Text × Json F) : Text × Json F :=
  if m.1 = key then (key, value) else m

def setMember (v : Json F) (key : Text) (value : Json F) : Json F :=
  match v with
  | .object members => .object (members.map (replaceValue key value))
  | .null | .bool _ | .int _ | .float _ | .string _ | .array _ => v

section

variable {v value : Json F} {key key' : Text} {members : List (Text × Json F)}

theorem replaceValue_key (m : Text × Json F) : (replaceValue key value m).1 = m.1 := by
  rw [replaceValue]
  split_ifs with h
  · exact h.symm
  · rfl

theorem find?_map_replaceValue :
    (members.map (replaceValue key value)).find? (fun m => m.1 = key') =
      (members.find? fun m => m.1 = key').map (replaceValue key value) := by
  rw [find?_map]
  congr 2
  funext m
  rw [comp_apply, replaceValue_key]

theorem get?_setMember_of_ne (hkey : key' ≠ key) :
    (v.setMember key value).get? key' = v.get? key' := by
  cases v with
  | null | bool | int | float | string | array => rfl
  | object members =>
    rw [setMember, get?, get?, find?_map_replaceValue, Option.map_map]
    refine Option.map_congr fun m hm => ?_
    have hm : m.1 = key' := by simpa using find?_some hm
    rw [comp_apply, replaceValue, if_neg (hm ▸ hkey)]

theorem get?_setMember_self (h : v.get? key ≠ none) :
    (v.setMember key value).get? key = some value := by
  cases v with
  | null | bool | int | float | string | array => exact absurd rfl h
  | object members =>
    rw [get?, ne_eq, Option.map_eq_none_iff] at h
    obtain ⟨m, hm⟩ := Option.ne_none_iff_exists'.1 h
    have hkey : m.1 = key := by simpa using find?_some hm
    rw [setMember, get?, find?_map_replaceValue, hm, Option.map_some, Option.map_some, replaceValue,
      if_pos hkey]

theorem distinct_setMember (hv : v.distinct) (hvalue : value.distinct) :
    (v.setMember key value).distinct := by
  cases v with
  | null | bool | int | float | string | array => exact hv
  | object members =>
    obtain ⟨hkeys, hmembers⟩ := distinct_object.1 hv
    refine distinct_object.2 ⟨?_, ?_⟩
    · have hsame : (members.map (replaceValue key value)).map (·.1) = members.map (·.1) := by
        rw [map_map]
        exact map_congr_left fun m _ => replaceValue_key m
      rwa [hsame]
    · intro m' hm'
      obtain ⟨m, hm, rfl⟩ := mem_map.1 hm'
      rw [replaceValue]
      split_ifs
      · exact hvalue
      · exact hmembers m hm

theorem setMember_self (hv : v.distinct) (h : v.get? key = some value) :
    v.setMember key value = v := by
  cases v with
  | null | bool | int | float | string | array => rfl
  | object members =>
    obtain ⟨hkeys, -⟩ := distinct_object.1 hv
    rw [setMember]
    refine congrArg object ((map_congr_left fun m hm => ?_).trans (map_id members))
    rw [replaceValue]
    split_ifs with hkey
    · -- the keys are distinct, so the member is the one that was found
      exact inj_on_of_nodup_map hkeys ((get?_object_eq_some hkeys).1 h) hm hkey.symm
    · rfl

end

/-! ## Values with the same sorted form -/

structure Alike (v w : Json F) : Prop where
  canon_eq : v.canon = w.canon
  distinct_left : v.distinct
  distinct_right : w.distinct

theorem Reordered.alike (h : Reordered v w) (hdistinct : v.distinct) : Alike v w :=
  ⟨h.canon_eq hdistinct, hdistinct, (h.spec hdistinct).1⟩

namespace Alike

variable {v w : Json F}

theorem depth_eq (h : Alike v w) : v.depth = w.depth := by
  rw [← depth_canon v, h.canon_eq, depth_canon]

theorem fits_eq (h : Alike v w) (limits : Limits) : v.fits limits = w.fits limits := by
  rw [← fits_canon limits v, h.canon_eq, fits_canon]

theorem canonicalJson_eq (h : Alike v w) (floats : Floats F) (limits : Limits) :
    v.canonicalJson floats limits = w.canonicalJson floats limits := by
  rw [canonicalJson, canonicalJson, dumps, dumps, h.depth_eq, h.fits_eq, h.canon_eq]

theorem get? (h : Alike v w) (key : Text) :
    (∃ v' w', v.get? key = some v' ∧ w.get? key = some w' ∧ Alike v' w') ∨
      v.get? key = none ∧ w.get? key = none := by
  have hcanon : (v.get? key).map canon = (w.get? key).map canon := by
    rw [← get?_canon h.distinct_left, h.canon_eq, get?_canon h.distinct_right]
  rcases hv : v.get? key with _ | v' <;> rcases hw : w.get? key with _ | w' <;>
    rw [hv, hw] at hcanon
  · exact .inr ⟨rfl, rfl⟩
  · cases hcanon
  · cases hcanon
  · exact .inl ⟨v', w', rfl, rfl, Option.some.inj hcanon, distinct_of_get? h.distinct_left hv,
      distinct_of_get? h.distinct_right hw⟩

theorem congr {α : Type*} {f : Json F → α} (h : Alike v w)
    (harray : ∀ items items', f (.array items) = f (.array items'))
    (hobject : ∀ members members', f (.object members) = f (.object members')) : f v = f w := by
  have hf (u : Json F) : f u.canon = f u := by
    cases u with
    | null | bool | int | float | string => rfl
    | array items => exact harray _ _
    | object members => exact hobject _ _
  rw [← hf v, h.canon_eq, hf]

end Alike

/-! ## Values without an order -/

def plain (v : Json F) : Bool :=
  v.all (fun _ => true) (fun _ => true) fun keys => decide (keys.length ≤ 1)

theorem plain_canon (v : Json F) : v.canon.plain = v.plain :=
  all_canon (fun _ _ h => decide_eq_decide.2 (by rw [h.length_eq])) v

theorem canon_of_plain (h : v.plain) : v.canon = v := by
  induction v using recMem with
  | null | bool | int | float | string => rfl
  | array items ih =>
    rw [plain, all_array, all_eq_true] at h
    rw [canon_array, map_congr_left fun v hv => ih v hv (h v hv), map_id']
  | object members ih =>
    rw [plain, all_object, Bool.and_eq_true, decide_eq_true_eq, length_map,
      all_eq_true] at h
    have hmembers : members.map (fun m => (m.1, m.2.canon)) = members := by
      refine (map_congr_left fun m hm => ?_).trans (map_id members)
      rw [ih m hm (h.2 m hm)]
      rfl
    rw [canon_object, hmembers]
    rcases members with _ | ⟨m, _ | ⟨m', members⟩⟩
    · rfl
    · rfl
    · exact absurd h.1 (by simp)

theorem Alike.eq_of_plain (h : Alike v w) (hv : v.plain) : w = v := by
  have hw : w.plain := by rw [← plain_canon, ← h.canon_eq, plain_canon, hv]
  rw [← canon_of_plain hw, ← h.canon_eq, canon_of_plain hv]

end Edr.Json
