/-
# Dictionaries kept in key order

An ordered dictionary is a list of entries whose keys strictly increase, so two
dictionaries with the same lookups are the same list. The operations are stated
twice: on bare entry lists, which a nested inductive type can hold, and on the
bundled `OrderedMap`, whose order is a field of the value.

`insertOrAssign` is a single pass that replaces on a collision; its lookup laws
therefore need no order hypothesis. `emplace` leaves a present key alone. Every
later fact about a dictionary goes through these lookup laws, through membership
and through extensionality.
-/

import Mathlib.Data.List.Induction
import Mathlib.Data.List.Sort
import Mathlib.Tactic

universe u v w

namespace Entries

variable {κ : Type u} {ν : Type v} {μ : Type w} [LinearOrder κ]

/-- Keys strictly increase along the list. -/
def Sorted (entries : List (κ × ν)) : Prop :=
  entries.Pairwise fun first second => first.1 < second.1

/-- Insert an entry in key order, replacing the entry of an equal key. -/
def insertOrAssign (key : κ) (value : ν) : List (κ × ν) → List (κ × ν)
  | [] => [(key, value)]
  | (present, old) :: rest =>
      if key < present then (key, value) :: (present, old) :: rest
      else if key = present then (key, value) :: rest
      else (present, old) :: insertOrAssign key value rest

/-- Insert an entry in key order unless its key is already present. -/
def emplace (key : κ) (value : ν) (entries : List (κ × ν)) : List (κ × ν) :=
  if (entries.lookup key).isSome then entries else insertOrAssign key value entries

/-- Build a dictionary by emplacing a list of entries from left to right. -/
def ofList (pairs : List (κ × ν)) : List (κ × ν) :=
  pairs.foldl (fun entries pair => emplace pair.1 pair.2 entries) []

theorem lookup_cons (key present : κ) (value : ν) (rest : List (κ × ν)) :
    List.lookup key ((present, value) :: rest) =
      if key = present then some value else List.lookup key rest := by
  by_cases hkey : key = present
  · simp [hkey]
  · have hbeq : (key == present) = false := by simpa using hkey
    simp [List.lookup_cons, hbeq, hkey]

/-- Assignment changes the lookup of its own key only. -/
@[simp]
theorem lookup_insertOrAssign (key wanted : κ) (value : ν) (entries : List (κ × ν)) :
    List.lookup wanted (insertOrAssign key value entries) =
      if wanted = key then some value else List.lookup wanted entries := by
  induction entries with
  | nil => simp [insertOrAssign, lookup_cons]
  | cons head rest ih =>
      obtain ⟨present, old⟩ := head
      rw [insertOrAssign]
      split_ifs with hlt heq hwanted hwanted hwanted
      all_goals simp only [lookup_cons, ih]
      all_goals grind

/-- Emplacement changes a lookup only where there was none. -/
@[simp]
theorem lookup_emplace (key wanted : κ) (value : ν) (entries : List (κ × ν)) :
    List.lookup wanted (emplace key value entries) =
      if wanted = key then some ((List.lookup key entries).getD value)
      else List.lookup wanted entries := by
  unfold emplace
  cases hpresent : List.lookup key entries with
  | none => simp
  | some old =>
      by_cases hwanted : wanted = key
      · simp [hwanted, hpresent]
      · simp [hwanted]

/-- A payload map commutes with lookup. -/
theorem lookup_mapValue (f : κ → ν → μ) (wanted : κ) (entries : List (κ × ν)) :
    List.lookup wanted (entries.map fun entry => (entry.1, f entry.1 entry.2)) =
      (List.lookup wanted entries).map (f wanted) := by
  induction entries with
  | nil => rfl
  | cons head rest ih =>
      obtain ⟨present, old⟩ := head
      simp only [List.map_cons, lookup_cons, ih]
      split_ifs with hkey
      · simp [hkey]
      · rfl

theorem lookup_foldl_emplace (wanted : κ) (pairs entries : List (κ × ν)) :
    List.lookup wanted (pairs.foldl (fun entries pair => emplace pair.1 pair.2 entries) entries) =
      (List.lookup wanted entries).or (List.lookup wanted pairs) := by
  induction pairs generalizing entries with
  | nil => simp
  | cons pair pairs ih =>
      rw [List.foldl_cons, ih, lookup_emplace, lookup_cons]
      by_cases hwanted : wanted = pair.1
      · subst hwanted
        cases List.lookup pair.1 entries <;> simp
      · simp [hwanted]

/-- A built dictionary finds the first of the listed entries. -/
@[simp]
theorem lookup_ofList (wanted : κ) (pairs : List (κ × ν)) :
    List.lookup wanted (ofList pairs) = List.lookup wanted pairs := by
  rw [ofList, lookup_foldl_emplace]
  simp

theorem sorted_nil : Sorted ([] : List (κ × ν)) := List.Pairwise.nil

theorem mem_insertOrAssign {key : κ} {value : ν} {entry : κ × ν} {entries : List (κ × ν)}
    (hmem : entry ∈ insertOrAssign key value entries) :
    entry = (key, value) ∨ entry ∈ entries := by
  induction entries with
  | nil => simpa [insertOrAssign] using hmem
  | cons head rest ih =>
      obtain ⟨present, old⟩ := head
      rw [insertOrAssign] at hmem
      split_ifs at hmem <;> grind

/-- Entries paired one for one, with the same keys, stay so. -/
theorem forall₂_insertOrAssign {rel : ν → μ → Prop} {entries : List (κ × ν)}
    {others : List (κ × μ)} (key : κ) {value : ν} {other : μ}
    (hpairs : List.Forall₂ (fun first second => first.1 = second.1 ∧ rel first.2 second.2)
      entries others) (hvalue : rel value other) :
    List.Forall₂ (fun first second => first.1 = second.1 ∧ rel first.2 second.2)
      (insertOrAssign key value entries) (insertOrAssign key other others) := by
  induction hpairs with
  | nil => exact .cons ⟨rfl, hvalue⟩ .nil
  | @cons first second entries others hpair hpairs ih =>
      obtain ⟨present, old⟩ := first
      obtain ⟨present', old'⟩ := second
      obtain ⟨hkey, hold⟩ := hpair
      cases hkey
      rw [insertOrAssign, insertOrAssign]
      split_ifs
      · exact .cons ⟨rfl, hvalue⟩ (.cons ⟨rfl, hold⟩ hpairs)
      · exact .cons ⟨rfl, hvalue⟩ hpairs
      · exact .cons ⟨rfl, hold⟩ ih

theorem sorted_insertOrAssign (key : κ) (value : ν) {entries : List (κ × ν)}
    (hsorted : Sorted entries) : Sorted (insertOrAssign key value entries) := by
  induction entries with
  | nil => simp [insertOrAssign, Sorted]
  | cons head rest ih =>
      obtain ⟨present, old⟩ := head
      have hhead : ∀ entry ∈ rest, present < entry.1 := fun entry hentry =>
        List.rel_of_pairwise_cons hsorted hentry
      have hrest : Sorted rest := List.Pairwise.of_cons hsorted
      rw [insertOrAssign]
      split_ifs with hlt heq
      · refine List.Pairwise.cons ?_ hsorted
        intro entry hentry
        rcases List.mem_cons.mp hentry with rfl | hentry
        · exact hlt
        · exact hlt.trans (hhead entry hentry)
      · subst heq
        exact List.Pairwise.cons hhead hrest
      · refine List.Pairwise.cons ?_ (ih hrest)
        intro entry hentry
        rcases mem_insertOrAssign hentry with rfl | hentry
        · exact lt_of_le_of_ne (not_lt.mp hlt) (Ne.symm heq)
        · exact hhead entry hentry

theorem sorted_emplace (key : κ) (value : ν) {entries : List (κ × ν)}
    (hsorted : Sorted entries) : Sorted (emplace key value entries) := by
  unfold emplace
  split_ifs
  · exact hsorted
  · exact sorted_insertOrAssign key value hsorted

theorem sorted_filter (keep : κ × ν → Bool) {entries : List (κ × ν)}
    (hsorted : Sorted entries) : Sorted (entries.filter keep) :=
  List.Pairwise.sublist List.filter_sublist hsorted

theorem sorted_mapValue (f : κ → ν → μ) {entries : List (κ × ν)}
    (hsorted : Sorted entries) :
    Sorted (entries.map fun entry => (entry.1, f entry.1 entry.2)) :=
  List.Pairwise.map _ (fun _ _ hlt => hlt) hsorted

theorem sorted_foldl_emplace (pairs : List (κ × ν)) {entries : List (κ × ν)}
    (hsorted : Sorted entries) :
    Sorted (pairs.foldl (fun entries pair => emplace pair.1 pair.2 entries) entries) := by
  induction pairs generalizing entries with
  | nil => exact hsorted
  | cons pair pairs ih => exact ih (sorted_emplace _ _ hsorted)

theorem sorted_ofList (pairs : List (κ × ν)) : Sorted (ofList pairs) :=
  sorted_foldl_emplace pairs sorted_nil

theorem ofList_append (pairs : List (κ × ν)) (last : κ × ν) :
    ofList (pairs ++ [last]) = emplace last.1 last.2 (ofList pairs) := by
  rw [ofList, List.foldl_append]
  rfl

/-- A present key keeps its value. -/
theorem emplace_emplace (key : κ) (value later : ν) (entries : List (κ × ν)) :
    emplace key later (emplace key value entries) = emplace key value entries := by
  have hpresent : (List.lookup key (emplace key value entries)).isSome := by simp
  rw [emplace, if_pos hpresent]

/-- In a sorted list the entries are exactly the successful lookups. -/
theorem mem_iff_lookup {entries : List (κ × ν)} (hsorted : Sorted entries)
    {key : κ} {value : ν} :
    (key, value) ∈ entries ↔ List.lookup key entries = some value := by
  induction entries with
  | nil => simp
  | cons head rest ih =>
      obtain ⟨present, old⟩ := head
      have hhead : ∀ entry ∈ rest, present < entry.1 := fun entry hentry =>
        List.rel_of_pairwise_cons hsorted hentry
      have hrest := ih (List.Pairwise.of_cons hsorted)
      rw [List.mem_cons, lookup_cons, hrest]
      by_cases hkey : key = present
      · subst hkey
        have habsent : List.lookup key rest ≠ some value := fun hfound =>
          lt_irrefl _ (hhead _ (hrest.mpr hfound))
        simp [habsent, eq_comm]
      · simp [hkey]

theorem lookup_eq_none_iff {entries : List (κ × ν)} {key : κ} :
    List.lookup key entries = none ↔ ∀ entry ∈ entries, entry.1 ≠ key := by
  induction entries with
  | nil => simp
  | cons head rest ih =>
      obtain ⟨present, old⟩ := head
      rw [lookup_cons]
      by_cases hkey : key = present
      · simp [hkey]
      · simp [hkey, ih, Ne.symm hkey]

theorem nodup_of_sorted {entries : List (κ × ν)} (hsorted : Sorted entries) :
    entries.Nodup := by
  refine List.Pairwise.imp ?_ hsorted
  intro first second hlt heq
  exact lt_irrefl _ (heq ▸ hlt)

theorem eq_of_perm {first second : List (κ × ν)} (hperm : first.Perm second)
    (hfirst : Sorted first) (hsecond : Sorted second) : first = second :=
  hperm.eq_of_pairwise (fun _ _ _ _ hlt hgt => absurd hlt (lt_asymm hgt)) hfirst hsecond

theorem emplace_of_absent {key : κ} {entries : List (κ × ν)} (value : ν)
    (habsent : List.lookup key entries = none) :
    emplace key value entries = insertOrAssign key value entries := by
  simp [emplace, habsent]

/-- Equal lookups on sorted lists force equality. -/
theorem eq_of_lookup_eq {first second : List (κ × ν)}
    (hfirst : Sorted first) (hsecond : Sorted second)
    (hlookup : ∀ key, List.lookup key first = List.lookup key second) :
    first = second := by
  refine eq_of_perm ?_ hfirst hsecond
  rw [List.perm_ext_iff_of_nodup (nodup_of_sorted hfirst) (nodup_of_sorted hsecond)]
  rintro ⟨key, value⟩
  rw [mem_iff_lookup hfirst, mem_iff_lookup hsecond, hlookup key]

/-- Mapping the payload of an assignment is assigning the mapped payload. -/
theorem map_insertOrAssign (f : κ → ν → μ) (key : κ) (value : ν)
    (entries : List (κ × ν)) :
    (insertOrAssign key value entries).map (fun entry => (entry.1, f entry.1 entry.2)) =
      insertOrAssign key (f key value)
        (entries.map fun entry => (entry.1, f entry.1 entry.2)) := by
  induction entries with
  | nil => rfl
  | cons head rest ih =>
      obtain ⟨present, old⟩ := head
      simp only [insertOrAssign, List.map_cons]
      split_ifs <;> simp [ih]

/-- Assigning an absent key adds one entry and moves none. -/
theorem perm_insertOrAssign {key : κ} {entries : List (κ × ν)} (value : ν)
    (habsent : List.lookup key entries = none) :
    (insertOrAssign key value entries).Perm ((key, value) :: entries) := by
  induction entries with
  | nil => exact List.Perm.refl _
  | cons head rest ih =>
      obtain ⟨present, old⟩ := head
      rw [lookup_cons] at habsent
      rw [insertOrAssign]
      split_ifs with hlt heq
      · exact List.Perm.refl _
      · simp [heq] at habsent
      · rw [if_neg heq] at habsent
        exact ((ih habsent).cons _).trans (List.Perm.swap _ _ _)

theorem perm_foldl_emplace {pairs : List (κ × ν)} (entries : List (κ × ν))
    (hnodup : (pairs.map Prod.fst).Nodup)
    (habsent : ∀ pair ∈ pairs, List.lookup pair.1 entries = none) :
    (pairs.foldl (fun entries pair => emplace pair.1 pair.2 entries) entries).Perm
      (pairs ++ entries) := by
  induction pairs generalizing entries with
  | nil => exact List.Perm.refl _
  | cons pair pairs ih =>
      obtain ⟨hfresh, hnodup⟩ := List.nodup_cons.mp hnodup
      have hpair : List.lookup pair.1 entries = none := habsent pair (by simp)
      have hinsert := emplace_of_absent pair.2 hpair
      have hstep : (pairs.foldl (fun entries pair => emplace pair.1 pair.2 entries)
          (emplace pair.1 pair.2 entries)).Perm
            (pairs ++ emplace pair.1 pair.2 entries) := by
        refine ih _ hnodup fun later hlater => ?_
        have hne : later.1 ≠ pair.1 := fun heq =>
          hfresh (heq ▸ List.mem_map_of_mem hlater)
        rw [lookup_emplace, if_neg hne]
        exact habsent later (List.mem_cons_of_mem _ hlater)
      refine hstep.trans ?_
      rw [hinsert]
      exact ((perm_insertOrAssign pair.2 hpair).append_left pairs).trans List.perm_middle

/-- Entries with distinct keys are stored exactly as an insertion sort by key
lists them. -/
theorem ofList_eq_insertionSort {pairs : List (κ × ν)}
    (hnodup : (pairs.map Prod.fst).Nodup) :
    ofList pairs = pairs.insertionSort fun first second => first.1 ≤ second.1 := by
  let below : κ × ν → κ × ν → Prop := fun first second => first.1 ≤ second.1
  have hperm : (ofList pairs).Perm (pairs.insertionSort below) := by
    have hfold := perm_foldl_emplace [] hnodup (by simp)
    rw [List.append_nil] at hfold
    exact hfold.trans (List.perm_insertionSort below pairs).symm
  have hkeys : ((pairs.insertionSort below).map Prod.fst).Nodup :=
    ((List.perm_insertionSort below pairs).map _).nodup_iff.mpr hnodup
  have htotal : ∀ first second : κ × ν, below first second ∨ below second first :=
    fun first second => le_total first.1 second.1
  have htrans : ∀ first second third : κ × ν,
      below first second → below second third → below first third :=
    fun _ _ _ hle hle' => le_trans hle hle'
  have hle : (pairs.insertionSort below).Pairwise below := by
    let : Std.Total below := ⟨htotal⟩
    let : IsTrans (κ × ν) below := ⟨htrans⟩
    exact List.pairwise_insertionSort below pairs
  have hne : (pairs.insertionSort below).Pairwise fun first second => first.1 ≠ second.1 :=
    List.pairwise_map.mp hkeys
  refine eq_of_perm hperm (sorted_ofList pairs) ?_
  exact (hle.and hne).imp fun hboth => lt_of_le_of_ne hboth.1 hboth.2

/-! ## Folds that read one entry -/

/-- A fold over the entries changes a part of its state only at one key: it acts there as
on the value under that key. -/
theorem foldl_part {σ : Type*} {β : Type*} {step : σ → κ × ν → σ} (key : κ) (part : σ → β)
    (result : ν → β → β)
    (hother : ∀ state entry, entry.1 ≠ key → part (step state entry) = part state)
    (hown : ∀ state value, part (step state (key, value)) =
      result value (part state))
    {entries : List (κ × ν)} (hsorted : Sorted entries) (state : σ) :
    part (entries.foldl step state) =
      ((entries.lookup key).map result).elim (part state) fun change => change (part state) := by
  have hkept : ∀ (rest : List (κ × ν)) (state : σ), (∀ entry ∈ rest, entry.1 ≠ key) →
      part (rest.foldl step state) = part state := by
    intro rest
    induction rest with
    | nil => exact fun state _ => rfl
    | cons entry rest ih =>
        intro state hkeys
        rw [List.foldl_cons, ih _ fun later hlater => hkeys later (List.mem_cons_of_mem _ hlater)]
        exact hother state entry (hkeys entry (by simp))
  induction entries generalizing state with
  | nil => rfl
  | cons entry rest ih =>
      rw [List.foldl_cons, lookup_cons]
      by_cases hkey : key = entry.1
      · have hlater : ∀ later ∈ rest, later.1 ≠ key := by
          intro later hmem hsame
          have hlt := List.rel_of_pairwise_cons hsorted hmem
          exact absurd (hsame.trans hkey) (ne_of_gt hlt)
        rw [if_pos hkey, hkept rest _ hlater]
        have hentry : entry = (key, entry.2) := Prod.ext hkey.symm rfl
        rw [hentry]
        exact hown state entry.2
      · rw [if_neg hkey, ih hsorted.of_cons, hother state entry fun hsame => hkey hsame.symm]

theorem lookup_isSome_iff {entries : List (κ × ν)} {key : κ} :
    (entries.lookup key).isSome ↔ key ∈ entries.map Prod.fst := by
  induction entries with
  | nil => simp
  | cons head rest ih =>
      obtain ⟨present, old⟩ := head
      rw [lookup_cons, List.map_cons, List.mem_cons, ← ih]
      by_cases hkey : key = present
      · simp [hkey]
      · simp [hkey]

/-- The last entry of a sorted list is that of the greatest key. -/
theorem getLast?_eq_some_iff {entries : List (κ × ν)} (hsorted : Sorted entries)
    {key : κ} {value : ν} :
    entries.getLast? = some (key, value) ↔
      List.lookup key entries = some value ∧
        ∀ other, (List.lookup other entries).isSome → other ≤ key := by
  induction entries using List.reverseRecOn with
  | nil => simp
  | append_singleton entries last ih =>
      obtain ⟨-, -, hbefore⟩ := List.pairwise_append.mp hsorted
      have hlast : List.lookup last.1 (entries ++ [last]) = some last.2 :=
        (mem_iff_lookup hsorted).mp (by simp)
      have hgreatest : ∀ other, (List.lookup other (entries ++ [last])).isSome → other ≤ last.1 := by
        intro other hother
        rw [lookup_isSome_iff] at hother
        obtain ⟨entry, hentry, rfl⟩ := List.mem_map.mp hother
        rcases List.mem_append.mp hentry with hearlier | hsame
        · exact le_of_lt (hbefore entry hearlier last (by simp))
        · rw [List.mem_singleton.mp hsame]
      rw [List.getLast?_append, List.getLast?_singleton, Option.some_or]
      constructor
      · rintro hsome
        obtain rfl := Option.some.inj hsome
        exact ⟨hlast, hgreatest⟩
      · rintro ⟨hfound, hmost⟩
        have hkey : key = last.1 := le_antisymm (hgreatest key (by rw [hfound]; rfl))
          (hmost last.1 (by rw [hlast]; rfl))
        rw [hkey, hlast] at hfound
        rw [hkey, ← Option.some.inj hfound]

/-- Lists with the same distinct keys and equal lookups are equal. -/
theorem eq_of_keys_of_lookup {first second : List (κ × ν)}
    (hkeys : first.map Prod.fst = second.map Prod.fst) (hnodup : (first.map Prod.fst).Nodup)
    (hlookup : ∀ key, first.lookup key = second.lookup key) : first = second := by
  induction first generalizing second with
  | nil => simpa using hkeys.symm
  | cons head rest ih =>
      cases second with
      | nil => simp at hkeys
      | cons head' rest' =>
          obtain ⟨key, value⟩ := head
          obtain ⟨key', value'⟩ := head'
          obtain ⟨rfl, hrest⟩ : key = key' ∧ rest.map Prod.fst = rest'.map Prod.fst := by
            simpa using hkeys
          obtain ⟨hfresh, hnodup⟩ := List.nodup_cons.mp hnodup
          have hvalue := hlookup key
          rw [lookup_cons, lookup_cons, if_pos rfl, if_pos rfl] at hvalue
          have htail : rest = rest' := by
            apply ih hrest hnodup
            intro wanted
            by_cases hwanted : wanted = key
            · have habsent : rest.lookup wanted = none := by
                rw [← Option.not_isSome_iff_eq_none, lookup_isSome_iff, hwanted]
                exact hfresh
              have habsent' : rest'.lookup wanted = none := by
                rw [← Option.not_isSome_iff_eq_none, lookup_isSome_iff, hwanted, ← hrest]
                exact hfresh
              rw [habsent, habsent']
            · have hsame := hlookup wanted
              rw [lookup_cons, lookup_cons, if_neg hwanted, if_neg hwanted] at hsame
              exact hsame
          rw [Option.some.inj hvalue, htail]

/-! ## Dictionaries of keyed items -/

section Keyed

variable {ι : Type*}

/-- The dictionary of a list of items, each under its key; of two items of one key the
first stays. -/
def keyed (key : ι → κ) (item : ι → ν) (items : List ι) : List (κ × ν) :=
  ofList (items.map fun i => (key i, item i))

/-- Give the entry of each item in turn a new value. -/
def updateEach (key : ι → κ) (update : ι → ν → ν) (items : List ι) (entries : List (κ × ν)) :
    List (κ × ν) :=
  items.foldl (fun entries i =>
    match List.lookup (key i) entries with
    | some value => insertOrAssign (key i) (update i value) entries
    | none => entries) entries

theorem lookup_keyed (key : ι → κ) (item : ι → ν) (items : List ι) (wanted : κ) :
    List.lookup wanted (keyed key item items) =
      (items.find? fun i => decide (key i = wanted)).map item := by
  rw [keyed, lookup_ofList]
  induction items with
  | nil => rfl
  | cons head items ih =>
      rw [List.map_cons, lookup_cons, List.find?_cons]
      by_cases hkey : wanted = key head
      · simp [hkey]
      · have hother : decide (key head = wanted) = false := by simpa using Ne.symm hkey
        rw [if_neg hkey, hother]
        exact ih

theorem sorted_keyed (key : ι → κ) (item : ι → ν) (items : List ι) :
    Sorted (keyed key item items) := sorted_ofList _

/-- Mapping the values of a keyed dictionary maps its items. -/
theorem map_keyed {μ : Type*} (f : ν → μ) (key : ι → κ) (item : ι → ν) (items : List ι) :
    (keyed key item items).map (fun entry => (entry.1, f entry.2)) =
      keyed key (fun i => f (item i)) items := by
  apply eq_of_lookup_eq (sorted_mapValue (fun _ => f) (sorted_keyed _ _ _)) (sorted_keyed _ _ _)
  intro wanted
  rw [lookup_mapValue (fun _ => f), lookup_keyed, lookup_keyed]
  cases items.find? fun i => decide (key i = wanted) <;> rfl

/-- Assigning one value under every key is the dictionary of that value. -/
theorem foldl_insertOrAssign_const (key : ι → κ) (value : ν) (items : List ι) :
    items.foldl (fun entries i => insertOrAssign (key i) value entries) [] =
      keyed key (fun _ => value) items := by
  have hfold : ∀ (entries : List (κ × ν)), Sorted entries →
      Sorted (items.foldl (fun entries i => insertOrAssign (key i) value entries) entries) ∧
      ∀ wanted, List.lookup wanted
        (items.foldl (fun entries i => insertOrAssign (key i) value entries) entries) =
          ((items.find? fun i => decide (key i = wanted)).map fun _ => value).or
            (List.lookup wanted entries) := by
    induction items with
    | nil => exact fun entries hsorted => ⟨hsorted, fun wanted => rfl⟩
    | cons head items ih =>
        intro entries hsorted
        obtain ⟨hnext, hlookup⟩ :=
          ih (insertOrAssign (key head) value entries) (sorted_insertOrAssign _ _ hsorted)
        refine ⟨hnext, fun wanted => ?_⟩
        rw [List.foldl_cons, hlookup, lookup_insertOrAssign, List.find?_cons]
        by_cases hkey : wanted = key head
        · subst hkey
          cases items.find? fun i => decide (key i = key head) <;> simp
        · have hother : decide (key head = wanted) = false := by simpa using Ne.symm hkey
          rw [if_neg hkey, hother]
  obtain ⟨hsorted, hlookup⟩ := hfold [] sorted_nil
  apply eq_of_lookup_eq hsorted (sorted_keyed _ _ _)
  intro wanted
  rw [hlookup, lookup_keyed]
  simp

/-- After a prefix of the items exactly the entries under its keys are updated; updating the
rest updates all entries. -/
theorem lookup_updateEach {key : ι → κ} {item : ι → ν} {update : ι → ν → ν} {items : List ι}
    (habsorb : ∀ first later value, update later (update first value) = update first value)
    {done rest : List ι} (hitems : items = done ++ rest) {entries : List (κ × ν)}
    (hsorted : Sorted entries)
    (hlookup : ∀ wanted, List.lookup wanted entries =
      (items.find? fun i => decide (key i = wanted)).map fun i =>
        if done.any fun j => decide (key j = wanted) then update i (item i) else item i) :
    Sorted (updateEach key update rest entries) ∧
      ∀ wanted, List.lookup wanted (updateEach key update rest entries) =
        (items.find? fun i => decide (key i = wanted)).map fun i => update i (item i) := by
  induction rest generalizing done entries with
  | nil =>
      refine ⟨hsorted, fun wanted => ?_⟩
      rw [List.append_nil] at hitems
      rw [updateEach, List.foldl_nil, hlookup wanted, ← hitems]
      cases hfirst : items.find? fun i => decide (key i = wanted) with
      | none => rfl
      | some first =>
          have hany : (items.any fun j => decide (key j = wanted)) = true :=
            List.any_eq_true.mpr
              ⟨first, List.mem_of_find?_eq_some hfirst, by simpa using List.find?_some hfirst⟩
          simp [hany]
  | cons head rest ih =>
      have hnext : items = (done ++ [head]) ++ rest := by simpa using hitems
      have hmem : head ∈ items := by simp [hitems]
      obtain ⟨first, hfirst⟩ : ∃ first,
          (items.find? fun i => decide (key i = key head)) = some first := by
        rw [← Option.isSome_iff_exists, List.find?_isSome]
        exact ⟨head, hmem, by simp⟩
      have hfound := hlookup (key head)
      rw [hfirst, Option.map_some] at hfound
      have hstep : updateEach key update (head :: rest) entries =
          updateEach key update rest (insertOrAssign (key head)
            (update head (if done.any fun j => decide (key j = key head)
              then update first (item first) else item first)) entries) := by
        simp only [updateEach, List.foldl_cons, hfound]
      rw [hstep]
      apply ih hnext (sorted_insertOrAssign _ _ hsorted)
      intro wanted
      rw [lookup_insertOrAssign]
      by_cases hwanted : wanted = key head
      · subst hwanted
        rw [if_pos rfl, hfirst, Option.map_some, List.any_append]
        by_cases hdone : (done.any fun j => decide (key j = key head)) = true
        · simp [hdone, habsorb]
        · -- no earlier item has this key, so the head is the first
          have hhead : first = head := by
            have hnone : (done.find? fun i => decide (key i = key head)) = none := by
              rw [List.find?_eq_none]
              intro j hj hkey
              exact hdone (List.any_eq_true.mpr ⟨j, hj, hkey⟩)
            rw [hitems, List.find?_append, hnone] at hfirst
            simpa [eq_comm] using hfirst
          simp [hdone, hhead]
      · have hsame : (([head] : List ι).any fun j => decide (key j = wanted)) = false := by
          simpa using Ne.symm hwanted
        rw [if_neg hwanted, hlookup wanted, List.any_append, hsame, Bool.or_false]

/-- When later updates under a key leave what the first did, updating the entries of all
items updates each item in its dictionary. -/
theorem updateEach_keyed (key : ι → κ) (item : ι → ν) (update : ι → ν → ν) (items : List ι)
    (habsorb : ∀ first later value, update later (update first value) = update first value) :
    updateEach key update items (keyed key item items) =
      keyed key (fun i => update i (item i)) items := by
  have hstart : ∀ wanted, List.lookup wanted (keyed key item items) =
      (items.find? fun i => decide (key i = wanted)).map fun i =>
        if ([] : List ι).any fun j => decide (key j = wanted) then update i (item i) else item i := by
    intro wanted
    simp [lookup_keyed]
  obtain ⟨hsorted, hlookup⟩ := lookup_updateEach habsorb (List.nil_append items).symm
    (sorted_keyed key item items) hstart
  apply eq_of_lookup_eq hsorted (sorted_keyed _ _ _)
  intro wanted
  rw [hlookup, lookup_keyed]

end Keyed

end Entries

/-- A dictionary whose entries are in strictly increasing key order. -/
structure OrderedMap (κ : Type u) (ν : Type v) [LinearOrder κ] where
  /-- The entries, in iteration order. -/
  entries : List (κ × ν)
  /-- Iteration follows the key order, so no key occurs twice. -/
  sorted : Entries.Sorted entries

namespace OrderedMap

variable {κ : Type u} {ν : Type v} {μ : Type w} [LinearOrder κ]

def empty : OrderedMap κ ν := ⟨[], Entries.sorted_nil⟩

instance : Inhabited (OrderedMap κ ν) := ⟨empty⟩

/-- The value stored under a key. -/
def find? (map : OrderedMap κ ν) (key : κ) : Option ν := List.lookup key map.entries

def contains (map : OrderedMap κ ν) (key : κ) : Bool := (map.find? key).isSome

def keys (map : OrderedMap κ ν) : List κ := map.entries.map Prod.fst

/-- The stored values, in key order. -/
def values (map : OrderedMap κ ν) : List ν := map.entries.map Prod.snd

def insertOrAssign (map : OrderedMap κ ν) (key : κ) (value : ν) : OrderedMap κ ν :=
  ⟨Entries.insertOrAssign key value map.entries, Entries.sorted_insertOrAssign _ _ map.sorted⟩

def emplace (map : OrderedMap κ ν) (key : κ) (value : ν) : OrderedMap κ ν :=
  ⟨Entries.emplace key value map.entries, Entries.sorted_emplace _ _ map.sorted⟩

/-- Keep the entries that satisfy a test. -/
def filter (map : OrderedMap κ ν) (keep : κ → ν → Bool) : OrderedMap κ ν :=
  ⟨map.entries.filter fun entry => keep entry.1 entry.2, Entries.sorted_filter _ map.sorted⟩

/-- Rewrite every value in place. -/
def mapValue (map : OrderedMap κ ν) (f : κ → ν → μ) : OrderedMap κ μ :=
  ⟨map.entries.map fun entry => (entry.1, f entry.1 entry.2),
    Entries.sorted_mapValue f map.sorted⟩

def ofList (pairs : List (κ × ν)) : OrderedMap κ ν :=
  ⟨Entries.ofList pairs, Entries.sorted_ofList pairs⟩

/-- Dictionaries with the same lookups are equal. -/
@[ext]
theorem ext {first second : OrderedMap κ ν}
    (hlookup : ∀ key, first.find? key = second.find? key) : first = second := by
  obtain ⟨entries, hsorted⟩ := first
  obtain ⟨entries', hsorted'⟩ := second
  congr
  exact Entries.eq_of_lookup_eq hsorted hsorted' hlookup

@[simp]
theorem find?_empty (key : κ) : (empty : OrderedMap κ ν).find? key = none := rfl

@[simp]
theorem find?_insertOrAssign (map : OrderedMap κ ν) (key wanted : κ) (value : ν) :
    (map.insertOrAssign key value).find? wanted =
      if wanted = key then some value else map.find? wanted :=
  Entries.lookup_insertOrAssign key wanted value map.entries

@[simp]
theorem find?_emplace (map : OrderedMap κ ν) (key wanted : κ) (value : ν) :
    (map.emplace key value).find? wanted =
      if wanted = key then some ((map.find? key).getD value) else map.find? wanted :=
  Entries.lookup_emplace key wanted value map.entries

@[simp]
theorem find?_ofList (pairs : List (κ × ν)) (key : κ) :
    (ofList pairs).find? key = List.lookup key pairs :=
  Entries.lookup_ofList key pairs

@[simp]
theorem find?_mapValue (map : OrderedMap κ ν) (f : κ → ν → μ) (key : κ) :
    (map.mapValue f).find? key = (map.find? key).map (f key) :=
  Entries.lookup_mapValue f key map.entries

theorem values_mapValue (map : OrderedMap κ ν) (f : ν → μ) :
    (map.mapValue fun _ => f).values = map.values.map f := by
  simp only [values, mapValue, List.map_map]
  rfl

theorem emplace_of_absent {map : OrderedMap κ ν} {key : κ} (value : ν)
    (habsent : map.contains key = false) : map.emplace key value = map.insertOrAssign key value := by
  have hnone : map.find? key = none := by simpa [contains] using habsent
  ext wanted
  simp [hnone]

/-- One more entry at the end of a list is emplaced last. -/
theorem ofList_append_singleton (pairs : List (κ × ν)) (key : κ) (value : ν) :
    ofList (pairs ++ [(key, value)]) = (ofList pairs).emplace key value := by
  ext1 wanted
  rw [find?_emplace, find?_ofList, find?_ofList, find?_ofList, List.lookup_append]
  split_ifs with hwanted
  · subst hwanted
    cases pairs.lookup wanted <;> simp
  · simp [Entries.lookup_cons, hwanted]

/-- Emplacing under a present key changes nothing. -/
theorem emplace_of_find? {map : OrderedMap κ ν} {key : κ} {old : ν} (value : ν)
    (hfound : map.find? key = some old) : map.emplace key value = map := by
  ext1 wanted
  rw [find?_emplace]
  split_ifs with hwanted
  · rw [hwanted, hfound, Option.getD_some]
  · rfl

/-- Emplacing keeps every entry. -/
theorem find?_emplace_of_find? {map : OrderedMap κ ν} {wanted : κ} {old : ν} (key : κ) (value : ν)
    (hfound : map.find? wanted = some old) : (map.emplace key value).find? wanted = some old := by
  rw [find?_emplace]
  split_ifs with hwanted
  · subst hwanted
    rw [hfound, Option.getD_some]
  · exact hfound

/-- Assigning what is stored already changes nothing. -/
theorem insertOrAssign_of_find? {map : OrderedMap κ ν} {key : κ} {value : ν}
    (hfound : map.find? key = some value) : map.insertOrAssign key value = map := by
  ext1 wanted
  rw [find?_insertOrAssign]
  split_ifs with hwanted
  · rw [hwanted, hfound]
  · rfl

theorem mem_entries_iff {map : OrderedMap κ ν} {key : κ} {value : ν} :
    (key, value) ∈ map.entries ↔ map.find? key = some value :=
  Entries.mem_iff_lookup map.sorted

theorem insertOrAssign_ne_nil (map : OrderedMap κ ν) (key : κ) (value : ν) :
    (map.insertOrAssign key value).entries ≠ [] := by
  have hmem : (key, value) ∈ (map.insertOrAssign key value).entries := by
    rw [mem_entries_iff, find?_insertOrAssign, if_pos rfl]
  exact List.ne_nil_of_mem hmem

theorem nodup_keys (map : OrderedMap κ ν) : map.keys.Nodup := by
  apply List.pairwise_map.mpr
  exact map.sorted.imp fun hlt => ne_of_lt hlt

theorem find?_of_not_mem_keys {map : OrderedMap κ ν} {key : κ} (habsent : key ∉ map.keys) :
    map.find? key = none := by
  apply Entries.lookup_eq_none_iff.mpr
  rintro entry hentry rfl
  exact habsent (List.mem_map_of_mem hentry)

theorem mem_values_iff {map : OrderedMap κ ν} {value : ν} :
    value ∈ map.values ↔ ∃ key, map.find? key = some value := by
  simp only [values, List.mem_map, Prod.exists, exists_eq_right, mem_entries_iff]

/-- A filtered dictionary answers a lookup when the found entry passes the test. -/
@[simp]
theorem find?_filter (map : OrderedMap κ ν) (keep : κ → ν → Bool) (key : κ) :
    (map.filter keep).find? key = (map.find? key).filter (keep key) := by
  ext value
  rw [← mem_entries_iff, Option.filter_eq_some_iff, ← mem_entries_iff]
  simp [filter]

/-- Values stored under their own keys are found by them. -/
theorem find?_values {map : OrderedMap κ ν} {own : ν → κ}
    (hown : ∀ key value, map.find? key = some value → own value = key) (wanted : κ) :
    (map.values.find? fun value => decide (own value = wanted)) = map.find? wanted := by
  have hentries : ∀ entry ∈ map.entries, own entry.2 = entry.1 := fun entry hmem =>
    hown entry.1 entry.2 (mem_entries_iff.mp hmem)
  rw [values, find?]
  generalize map.entries = entries at hentries
  induction entries with
  | nil => rfl
  | cons entry rest ih =>
      rw [List.map_cons, List.find?_cons, Entries.lookup_cons, hentries entry (by simp),
        ih fun later hlater => hentries later (List.mem_cons_of_mem _ hlater)]
      by_cases hkey : entry.1 = wanted
      · simp [hkey]
      · simp [hkey, Ne.symm hkey]

/-- Assign a list of items from left to right: of the items with one key the last
stays. -/
def assignAll {α : Type w} (key : α → κ) (value : α → ν) (items : List α)
    (map : OrderedMap κ ν) : OrderedMap κ ν :=
  items.foldl (fun map item => map.insertOrAssign (key item) (value item)) map

section Assign

variable {α : Type w} {key : α → κ} {value : α → ν}

theorem assignAll_append (items : List α) (last : α) (map : OrderedMap κ ν) :
    assignAll key value (items ++ [last]) map =
      (assignAll key value items map).insertOrAssign (key last) (value last) := by
  rw [assignAll, List.foldl_append]
  rfl

/-- What is found after the assignments is an assigned item or was there before. -/
theorem find?_assignAll {items : List α} {map : OrderedMap κ ν} {wanted : κ} {found : ν}
    (hfound : (assignAll key value items map).find? wanted = some found) :
    (∃ item ∈ items, key item = wanted ∧ value item = found) ∨ map.find? wanted = some found := by
  induction items using List.reverseRecOn with
  | nil => exact .inr hfound
  | append_singleton items last ih =>
      rw [assignAll_append, find?_insertOrAssign] at hfound
      split_ifs at hfound with hwanted
      · exact .inl ⟨last, by simp, hwanted.symm, Option.some.inj hfound⟩
      · exact (ih hfound).imp (fun ⟨item, hmem, hitem⟩ => ⟨item, by simp [hmem], hitem⟩) id

/-- Under the key of an assigned item an item of that key is found. -/
theorem find?_assignAll_of_mem {items : List α} {map : OrderedMap κ ν} {item : α}
    (hmem : item ∈ items) :
    ∃ stored ∈ items, key stored = key item ∧
      (assignAll key value items map).find? (key item) = some (value stored) := by
  induction items using List.reverseRecOn with
  | nil => cases hmem
  | append_singleton items last ih =>
      rw [assignAll_append, find?_insertOrAssign]
      by_cases hlast : key item = key last
      · exact ⟨last, by simp, hlast.symm, if_pos hlast⟩
      · have hearlier : item ∈ items := by
          rcases List.mem_append.mp hmem with hearlier | hsingle
          · exact hearlier
          · exact absurd (congrArg key (List.mem_singleton.mp hsingle)) hlast
        obtain ⟨stored, hstored, hkey, hfound⟩ := ih hearlier
        exact ⟨stored, by simp [hstored], hkey, (if_neg hlast).trans hfound⟩

/-- Rewriting every entry of a dictionary in turn rewrites its values. -/
theorem assignAll_entries (map : OrderedMap κ ν) (f : κ → ν → ν) :
    assignAll Prod.fst (fun entry => f entry.1 entry.2) map.entries map = map.mapValue f := by
  ext1 wanted
  rw [find?_mapValue]
  cases hstored : map.find? wanted with
  | none =>
      rw [Option.map_none, Option.eq_none_iff_forall_ne_some]
      intro found hfound
      rcases find?_assignAll hfound with ⟨entry, hmem, hkey, -⟩ | hbefore
      · rw [← hkey, mem_entries_iff.mp hmem] at hstored
        cases hstored
      · rw [hstored] at hbefore
        cases hbefore
  | some value =>
      obtain ⟨entry, hmem, hkey, hfound⟩ : ∃ entry ∈ map.entries, entry.1 = wanted ∧
          (assignAll Prod.fst (fun entry => f entry.1 entry.2) map.entries map).find? wanted =
            some (f entry.1 entry.2) :=
        find?_assignAll_of_mem (mem_entries_iff.mpr hstored)
      obtain ⟨key, other⟩ := entry
      cases hkey
      cases (mem_entries_iff.mp hmem).symm.trans hstored
      exact hfound

/-- The items under their keys: of the items with one key the last stays. -/
def index (key : α → κ) (items : List α) : OrderedMap κ α := assignAll key id items empty

theorem find?_index (items : List α) (wanted : κ) :
    (index key items).find? wanted =
      items.reverse.find? fun item => decide (key item = wanted) := by
  induction items using List.reverseRecOn with
  | nil => rfl
  | append_singleton items last ih =>
      rw [index, assignAll_append, find?_insertOrAssign, List.reverse_append,
        List.reverse_singleton, List.singleton_append, List.find?_cons, ← ih]
      by_cases hlast : key last = wanted
      · simp [hlast]
      · simp [hlast, Ne.symm hlast, index]

/-- What is found under a key has that key. -/
theorem key_of_find?_index {items : List α} {wanted : κ} {found : α}
    (hfound : (index key items).find? wanted = some found) : key found = wanted := by
  rw [find?_index] at hfound
  simpa using List.find?_some hfound

theorem mem_values_index_iff {items : List α} {item : α} :
    item ∈ (index key items).values ↔ (index key items).find? (key item) = some item := by
  rw [mem_values_iff]
  constructor
  · rintro ⟨wanted, hfound⟩
    rw [key_of_find?_index hfound]
    exact hfound
  · exact fun hfound => ⟨_, hfound⟩

theorem mem_of_mem_values_index {items : List α} {item : α}
    (hmem : item ∈ (index key items).values) : item ∈ items := by
  rw [mem_values_index_iff, find?_index] at hmem
  exact List.mem_reverse.mp (List.mem_of_find?_eq_some hmem)

theorem nodup_values_index (items : List α) : (index key items).values.Nodup := by
  have hkeys : (index key items).values.map key = (index key items).keys := by
    rw [values, keys, List.map_map]
    apply List.map_congr_left
    rintro ⟨wanted, item⟩ hentry
    show key item = wanted
    exact key_of_find?_index (mem_entries_iff.mp hentry)
  apply List.Nodup.of_map key
  rw [hkeys]
  exact List.pairwise_map.mpr ((index key items).sorted.imp ne_of_lt)

/-- Items with distinct keys are all found. -/
theorem find?_index_iff_of_nodup {items : List α} (hnodup : (items.map key).Nodup) {wanted : κ}
    {item : α} :
    (index key items).find? wanted = some item ↔ item ∈ items ∧ key item = wanted := by
  constructor
  · intro hfound
    have hkey := key_of_find?_index hfound
    rw [← hkey] at hfound
    exact ⟨mem_of_mem_values_index (mem_values_index_iff.mpr hfound), hkey⟩
  · rintro ⟨hmem, rfl⟩
    obtain ⟨stored, hstored, hkey, hfound⟩ : ∃ stored ∈ items, key stored = key item ∧
        (index key items).find? (key item) = some (id stored) := find?_assignAll_of_mem hmem
    have hsame : stored = item := List.inj_on_of_nodup_map hnodup hstored hmem hkey
    rw [hsame] at hfound
    exact hfound

theorem perm_values_index {items : List α} (hnodup : (items.map key).Nodup) :
    (index key items).values.Perm items := by
  rw [List.perm_ext_iff_of_nodup (nodup_values_index items) (List.Nodup.of_map key hnodup)]
  intro item
  rw [mem_values_index_iff, find?_index_iff_of_nodup hnodup]
  exact and_iff_left rfl

end Assign

@[simp]
theorem contains_eq_true_iff {map : OrderedMap κ ν} {key : κ} :
    map.contains key = true ↔ ∃ value, map.find? key = some value := by
  simp [contains, Option.isSome_iff_exists]

end OrderedMap
