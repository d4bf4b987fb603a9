import Mathlib.Data.List.Nodup

/-! # The `groupcache` LRU cache

`lru.Cache` from `github.com/golang/groupcache/lru`, the store underneath the response cache.
The Go value keeps a doubly linked list, most recently used element at the front, and a map from
each key to its element. One list of key and value pairs stands for both here; the map makes keys
unique, which `Cache.Valid` records. Where the Go code calls `OnEvicted`, each operation returns
the evicted pairs instead, in the order of the calls.
-/

namespace XdsRelay.Lru

/-- `lru.Cache`. -/
structure Cache (Key Value : Type) where
  /-- `MaxEntries`: the number of entries before an item is evicted; zero means no limit. -/
  maxEntries : Int
  /-- The list `ll`, most recently used first. -/
  entries : List (Key × Value)
  deriving DecidableEq, Repr

variable {Key Value : Type} [DecidableEq Key]

/-- The value the map `cache` holds for `key`. -/
def lookup (key : Key) : List (Key × Value) → Option Value
  | [] => none
  | (other, value) :: rest => if other = key then some value else lookup key rest

/-- The list without the element of `key`, as `removeElement` leaves it. -/
def unlink (key : Key) (entries : List (Key × Value)) : List (Key × Value) :=
  entries.filter fun entry => entry.1 != key

namespace Cache

/-- The keys, most recently used first. -/
def keys (cache : Cache Key Value) : List Key := cache.entries.map Prod.fst

/-- `Len`. -/
def len (cache : Cache Key Value) : Nat := cache.entries.length

/-- `ll.MoveToFront` of the element of `key`, which then holds `value`. -/
def moveToFront (cache : Cache Key Value) (key : Key) (value : Value) : Cache Key Value :=
  { cache with entries := (key, value) :: unlink key cache.entries }

/-- `Get`: a hit moves the key's element to the front. -/
def get (cache : Cache Key Value) (key : Key) : Cache Key Value × Option Value :=
  match lookup key cache.entries with
  | some value => (cache.moveToFront key value, some value)
  | none => (cache, none)

/-- `RemoveOldest`: remove the element at the back. -/
def removeOldest (cache : Cache Key Value) : Cache Key Value × List (Key × Value) :=
  match cache.entries.getLast? with
  | some oldest => ({ cache with entries := cache.entries.dropLast }, [oldest])
  | none => (cache, [])

/-- `Add`: a present key moves to the front with its new value. A new key is pushed at the
front, and `RemoveOldest` runs when that makes the list longer than a nonzero `MaxEntries`. -/
def add (cache : Cache Key Value) (key : Key) (value : Value) :
    Cache Key Value × List (Key × Value) :=
  match lookup key cache.entries with
  | some _ => (cache.moveToFront key value, [])
  | none =>
      let pushed : Cache Key Value := { cache with entries := (key, value) :: cache.entries }
      if cache.maxEntries ≠ 0 ∧ cache.maxEntries < pushed.len then pushed.removeOldest
      else (pushed, [])

/-- `Remove`. -/
def remove (cache : Cache Key Value) (key : Key) : Cache Key Value × List (Key × Value) :=
  match lookup key cache.entries with
  | some value => ({ cache with entries := unlink key cache.entries }, [(key, value)])
  | none => (cache, [])

/-- The map and the list agree: no key has two elements. -/
def Valid (cache : Cache Key Value) : Prop := cache.keys.Nodup

end Cache

/-! ## Lookup -/

@[simp] theorem lookup_nil (key : Key) : lookup key ([] : List (Key × Value)) = none := rfl

@[simp] theorem lookup_cons_self (key : Key) (value : Value) (rest : List (Key × Value)) :
    lookup key ((key, value) :: rest) = some value := by
  simp [lookup]

@[simp] theorem lookup_cons_of_ne {key other : Key} (value : Value) (rest : List (Key × Value))
    (different : other ≠ key) : lookup key ((other, value) :: rest) = lookup key rest := by
  simp [lookup, different]

theorem lookup_eq_none_iff {key : Key} {entries : List (Key × Value)} :
    lookup key entries = none ↔ key ∉ entries.map Prod.fst := by
  induction entries with
  | nil => simp
  | cons head tail induction =>
      by_cases same : head.1 = key
      · simp [lookup, same]
      · simp [lookup, same, induction, Ne.symm same]

theorem mem_of_lookup_eq_some {key : Key} {value : Value} {entries : List (Key × Value)}
    (found : lookup key entries = some value) : (key, value) ∈ entries := by
  induction entries with
  | nil => cases found
  | cons head tail induction =>
      by_cases same : head.1 = key
      · simp only [lookup, same, if_true, Option.some.injEq] at found
        subst same found
        exact List.mem_cons_self _ _
      · simp only [lookup, same, if_false] at found
        exact List.mem_cons_of_mem _ (induction found)

theorem lookup_eq_some_of_mem {key : Key} {value : Value} {entries : List (Key × Value)}
    (nodup : (entries.map Prod.fst).Nodup) (member : (key, value) ∈ entries) :
    lookup key entries = some value := by
  induction entries with
  | nil => cases member
  | cons head tail induction =>
      have parts := List.nodup_cons.mp nodup
      rcases List.mem_cons.mp member with equal | member
      · subst equal
        simp
      · have different : head.1 ≠ key := fun same =>
          parts.1 (same ▸ List.mem_map_of_mem Prod.fst member)
        simp [lookup, different, induction parts.2 member]

@[simp] theorem lookup_unlink_self (key : Key) (entries : List (Key × Value)) :
    lookup key (unlink key entries) = none := by
  simp [lookup_eq_none_iff, unlink]

@[simp] theorem lookup_unlink_of_ne {key other : Key} (entries : List (Key × Value))
    (different : other ≠ key) : lookup other (unlink key entries) = lookup other entries := by
  induction entries with
  | nil => rfl
  | cons head tail induction =>
      obtain ⟨first, value⟩ := head
      by_cases same : first = key
      · subst same
        simp [unlink, lookup, Ne.symm different] at induction ⊢
        exact induction
      · by_cases hit : first = other <;> simp_all [unlink, lookup]

@[simp] theorem unlink_cons_self (key : Key) (value : Value) (entries : List (Key × Value)) :
    unlink key ((key, value) :: entries) = unlink key entries := by
  simp [unlink]

@[simp] theorem unlink_unlink (key : Key) (entries : List (Key × Value)) :
    unlink key (unlink key entries) = unlink key entries := by
  simp [unlink, List.filter_filter]

theorem keys_unlink (key : Key) (entries : List (Key × Value)) :
    (unlink key entries).map Prod.fst = (entries.map Prod.fst).filter (· != key) := by
  simp only [unlink, List.filter_map]
  rfl

theorem nodup_unlink {key : Key} {entries : List (Key × Value)}
    (nodup : (entries.map Prod.fst).Nodup) : ((unlink key entries).map Prod.fst).Nodup := by
  rw [keys_unlink]
  exact nodup.filter _

theorem length_unlink {key : Key} {value : Value} {entries : List (Key × Value)}
    (nodup : (entries.map Prod.fst).Nodup) (found : lookup key entries = some value) :
    (unlink key entries).length + 1 = entries.length := by
  have counted := List.length_map (unlink key entries) Prod.fst
  rw [keys_unlink, ← (nodup.erase_eq_filter key)] at counted
  have member : key ∈ entries.map Prod.fst :=
    List.mem_map_of_mem Prod.fst (mem_of_lookup_eq_some found)
  rw [← counted, List.length_erase_of_mem member, List.length_map]
  have : 0 < entries.length := List.length_pos_of_mem (mem_of_lookup_eq_some found)
  omega

theorem lookup_append (key : Key) (front back : List (Key × Value)) :
    lookup key (front ++ back) = (lookup key front).or (lookup key back) := by
  induction front with
  | nil => simp
  | cons head tail induction =>
      obtain ⟨first, value⟩ := head
      by_cases same : first = key <;> simp [lookup, same, induction]

/-- Dropping the back element forgets exactly its key. -/
theorem lookup_dropLast {entries : List (Key × Value)} (nodup : (entries.map Prod.fst).Nodup)
    (key : Key) :
    lookup key entries.dropLast =
      if entries.getLast?.map Prod.fst = some key then none else lookup key entries := by
  rcases List.eq_nil_or_concat entries with empty | ⟨front, last, rfl⟩
  · simp [empty]
  · have parts := List.nodup_append.mp (by simpa using nodup)
    simp only [List.concat_eq_append, List.dropLast_concat, List.getLast?_concat, Option.map_some',
      Option.some.injEq, lookup_append]
    by_cases same : last.1 = key
    · have absent : key ∉ front.map Prod.fst := fun member =>
        parts.2.2 member (by simp [← same])
      simp [same, lookup_eq_none_iff.mpr absent]
    · cases found : lookup key front <;>
        simp [lookup, same]

namespace Cache

variable (cache : Cache Key Value) (key : Key)

/-! ## `MoveToFront` -/

@[simp] theorem maxEntries_moveToFront (value : Value) :
    (cache.moveToFront key value).maxEntries = cache.maxEntries := rfl

@[simp] theorem entries_moveToFront (value : Value) :
    (cache.moveToFront key value).entries = (key, value) :: unlink key cache.entries := rfl

@[simp] theorem moveToFront_moveToFront (value value' : Value) :
    (cache.moveToFront key value).moveToFront key value' = cache.moveToFront key value' := by
  simp [moveToFront]

theorem lookup_moveToFront (value : Value) (other : Key) :
    lookup other (cache.moveToFront key value).entries =
      if other = key then some value else lookup other cache.entries := by
  by_cases same : other = key
  · subst same
    simp
  · simp [same, Ne.symm same]

@[simp] theorem keys_moveToFront (value : Value) :
    (cache.moveToFront key value).keys = key :: cache.keys.filter (· != key) := by
  simp [keys, keys_unlink]

theorem valid_moveToFront {cache : Cache Key Value} (valid : cache.Valid) (value : Value) :
    (cache.moveToFront key value).Valid :=
  List.nodup_cons.mpr ⟨lookup_eq_none_iff.mp (lookup_unlink_self key _), nodup_unlink valid⟩

theorem len_moveToFront {cache : Cache Key Value} (valid : cache.Valid) {old : Value}
    (found : lookup key cache.entries = some old) (value : Value) :
    (cache.moveToFront key value).len = cache.len := by
  simpa [len] using length_unlink valid found

/-! ## `Get` -/

theorem get_of_lookup_some {value : Value} (found : lookup key cache.entries = some value) :
    cache.get key = (cache.moveToFront key value, some value) := by
  simp [get, found]

theorem get_of_lookup_none (missing : lookup key cache.entries = none) :
    cache.get key = (cache, none) := by
  simp [get, missing]

@[simp] theorem get_snd : (cache.get key).2 = lookup key cache.entries := by
  unfold get
  split <;> simp_all

@[simp] theorem maxEntries_get : (cache.get key).1.maxEntries = cache.maxEntries := by
  unfold get
  split <;> rfl

/-- `Get` reorders the list and changes no value. -/
@[simp] theorem lookup_get (other : Key) :
    lookup other (cache.get key).1.entries = lookup other cache.entries := by
  cases found : lookup key cache.entries with
  | none => simp [get_of_lookup_none _ _ found]
  | some value =>
      rw [get_of_lookup_some _ _ found, lookup_moveToFront]
      split <;> simp_all

theorem valid_get {cache : Cache Key Value} (valid : cache.Valid) : (cache.get key).1.Valid := by
  cases found : lookup key cache.entries with
  | none => simpa [get_of_lookup_none _ _ found] using valid
  | some value =>
      rw [get_of_lookup_some _ _ found]
      exact valid_moveToFront key valid value

/-! ## `Remove` -/

theorem remove_of_lookup_some {value : Value} (found : lookup key cache.entries = some value) :
    cache.remove key = ({ cache with entries := unlink key cache.entries }, [(key, value)]) := by
  simp [remove, found]

theorem remove_of_lookup_none (missing : lookup key cache.entries = none) :
    cache.remove key = (cache, []) := by
  simp [remove, missing]

/-- Removing the key just moved to the front removes its element from where it was. -/
@[simp] theorem remove_moveToFront (value : Value) :
    (cache.moveToFront key value).remove key =
      ({ cache with entries := unlink key cache.entries }, [(key, value)]) := by
  simp [remove, moveToFront]

@[simp] theorem remove_snd : (cache.remove key).2 = (lookup key cache.entries).toList.map (key, ·) := by
  unfold remove
  split <;> simp_all

@[simp] theorem maxEntries_remove : (cache.remove key).1.maxEntries = cache.maxEntries := by
  unfold remove
  split <;> rfl

@[simp] theorem lookup_remove (other : Key) :
    lookup other (cache.remove key).1.entries =
      if other = key then none else lookup other cache.entries := by
  unfold remove
  split
  · by_cases same : other = key
    · subst same
      simp
    · simp [same]
  · rename_i missing
    by_cases same : other = key
    · subst same
      simp [missing]
    · simp [same]

theorem valid_remove {cache : Cache Key Value} (valid : cache.Valid) :
    (cache.remove key).1.Valid := by
  unfold remove
  split
  · exact nodup_unlink valid
  · exact valid

theorem len_remove_le : (cache.remove key).1.len ≤ cache.len := by
  unfold remove
  split
  · exact List.length_filter_le _ _
  · exact le_refl _

/-! ## `Add` -/

theorem add_of_lookup_some {old : Value} (value : Value)
    (found : lookup key cache.entries = some old) :
    cache.add key value = (cache.moveToFront key value, []) := by
  simp [add, found]

/-- `Add` of a new key evicts the back of the pushed list when the cache already held a nonzero
`MaxEntries` entries or more. -/
theorem add_of_lookup_none (value : Value) (missing : lookup key cache.entries = none) :
    cache.add key value =
      if cache.maxEntries ≠ 0 ∧ cache.maxEntries ≤ cache.len then
        ({ cache with entries := ((key, value) :: cache.entries).dropLast },
          [((key, value) :: cache.entries).getLast (List.cons_ne_nil _ _)])
      else ({ cache with entries := (key, value) :: cache.entries }, []) := by
  have overflow : cache.maxEntries < ((cache.len + 1 : Nat) : Int) ↔
      cache.maxEntries ≤ cache.len := by omega
  simp only [add, missing, len, List.length_cons] at overflow ⊢
  simp only [overflow]
  split
  · simp [removeOldest, List.getLast?_eq_getLast]
  · rfl

@[simp] theorem maxEntries_add (value : Value) :
    (cache.add key value).1.maxEntries = cache.maxEntries := by
  cases found : lookup key cache.entries with
  | none =>
      rw [add_of_lookup_none _ _ _ found]
      split <;> rfl
  | some old =>
      rw [add_of_lookup_some _ _ _ found]
      rfl

/-- After `Add`, `key` holds `value` and every other key its old value, save the evicted ones. -/
theorem lookup_add {cache : Cache Key Value} (valid : cache.Valid) (value : Value) (other : Key) :
    lookup other (cache.add key value).1.entries =
      if other ∈ (cache.add key value).2.map Prod.fst then none
      else if other = key then some value else lookup other cache.entries := by
  cases found : lookup key cache.entries with
  | some old =>
      rw [add_of_lookup_some _ _ _ found, lookup_moveToFront]
      simp
  | none =>
      have pushed : (((key, value) :: cache.entries).map Prod.fst).Nodup :=
        List.nodup_cons.mpr ⟨lookup_eq_none_iff.mp found, valid⟩
      rw [add_of_lookup_none _ _ _ found]
      split
      · rw [lookup_dropLast pushed, List.getLast?_eq_getLast _ (List.cons_ne_nil _ _)]
        by_cases same : other = key
        · subst same
          simp [eq_comm]
        · simp [same, Ne.symm same, eq_comm]
      · by_cases same : other = key
        · subst same
          simp
        · simp [same, Ne.symm same]

@[simp] theorem add_moveToFront (value value' : Value) :
    (cache.moveToFront key value).add key value' = (cache.moveToFront key value', []) := by
  have found : lookup key (cache.moveToFront key value).entries = some value := by simp
  rw [add_of_lookup_some _ _ _ found, moveToFront_moveToFront]

theorem valid_add {cache : Cache Key Value} (valid : cache.Valid) (value : Value) :
    (cache.add key value).1.Valid := by
  cases found : lookup key cache.entries with
  | some old =>
      rw [add_of_lookup_some _ _ _ found]
      exact valid_moveToFront key valid value
  | none =>
      have pushed : (((key, value) :: cache.entries).map Prod.fst).Nodup :=
        List.nodup_cons.mpr ⟨lookup_eq_none_iff.mp found, valid⟩
      rw [add_of_lookup_none _ _ _ found]
      split
      · simpa only [Valid, keys, List.map_dropLast] using pushed.sublist (List.dropLast_sublist _)
      · exact pushed

/-- `Add` evicts at most one pair: the new one, or one the cache held. -/
theorem mem_add_snd {value : Value} {pair : Key × Value} (evicted : pair ∈ (cache.add key value).2) :
    pair = (key, value) ∨ pair ∈ cache.entries := by
  cases found : lookup key cache.entries with
  | some old => simp [add_of_lookup_some _ _ _ found] at evicted
  | none =>
      rw [add_of_lookup_none _ _ _ found] at evicted
      split at evicted
      · exact List.mem_cons.mp (List.mem_singleton.mp evicted ▸ List.getLast_mem _)
      · cases evicted

/-- The pairs `Add` evicts are those of the pushed list under the evicted keys. -/
theorem mem_add_snd_iff {cache : Cache Key Value} (valid : cache.Valid) (value : Value)
    (pair : Key × Value) :
    pair ∈ (cache.add key value).2 ↔
      pair.1 ∈ (cache.add key value).2.map Prod.fst ∧
        lookup pair.1 ((key, value) :: cache.entries) = some pair.2 := by
  cases found : lookup key cache.entries with
  | some old => simp [add_of_lookup_some _ _ _ found]
  | none =>
      have pushed : (((key, value) :: cache.entries).map Prod.fst).Nodup :=
        List.nodup_cons.mpr ⟨lookup_eq_none_iff.mp found, valid⟩
      have stored : ∀ other ∈ (cache.add key value).2,
          lookup other.1 ((key, value) :: cache.entries) = some other.2 := fun other evicted =>
        lookup_eq_some_of_mem pushed (List.mem_cons.mpr (mem_add_snd cache key evicted))
      refine ⟨fun evicted => ⟨List.mem_map_of_mem _ evicted, stored pair evicted⟩, ?_⟩
      rintro ⟨member, held⟩
      obtain ⟨other, evicted, sameKey⟩ := List.mem_map.mp member
      have sameValue := stored other evicted
      rw [sameKey, held, Option.some.injEq] at sameValue
      rwa [← Prod.ext sameKey sameValue.symm]

theorem length_add_snd_le (value : Value) : (cache.add key value).2.length ≤ 1 := by
  cases found : lookup key cache.entries with
  | some old => simp [add_of_lookup_some _ _ _ found]
  | none =>
      rw [add_of_lookup_none _ _ _ found]
      split <;> simp

theorem len_add_of_lookup_none (value : Value) (missing : lookup key cache.entries = none) :
    (cache.add key value).1.len =
      if cache.maxEntries ≠ 0 ∧ cache.maxEntries ≤ cache.len then cache.len else cache.len + 1 := by
  rw [add_of_lookup_none _ _ _ missing]
  split <;> simp [len]

end Cache

/-! ## Renaming keys and values

A cache whose keys and values are renamed by an injective map on keys behaves as the original
does. The response cache uses this to move between typed entries and `interface{}` values. -/

section Rename

variable {Key' Value' : Type} [DecidableEq Key'] {renameKey : Key → Key'}
  (injective : Function.Injective renameKey) (renameValue : Value → Value')
include injective

theorem lookup_map (key : Key) (entries : List (Key × Value)) :
    lookup (renameKey key) (entries.map (Prod.map renameKey renameValue)) =
      (lookup key entries).map renameValue := by
  induction entries with
  | nil => rfl
  | cons head tail induction =>
      obtain ⟨first, value⟩ := head
      by_cases same : first = key
      · subst same
        simp
      · have different : renameKey first ≠ renameKey key := fun equal => same (injective equal)
        simp [lookup, same, different, induction]

theorem unlink_map (key : Key) (entries : List (Key × Value)) :
    unlink (renameKey key) (entries.map (Prod.map renameKey renameValue)) =
      (unlink key entries).map (Prod.map renameKey renameValue) := by
  simp only [unlink, List.filter_map]
  congr 2
  funext entry
  rw [Bool.eq_iff_iff]
  simp only [Function.comp_apply, Prod.map_fst, bne_iff_ne, ne_eq, injective.eq_iff]

namespace Cache

/-- The same cache with keys and values renamed. -/
def map (renameKey : Key → Key') (renameValue : Value → Value') (cache : Cache Key Value) :
    Cache Key' Value' :=
  { maxEntries := cache.maxEntries, entries := cache.entries.map (Prod.map renameKey renameValue) }

variable (cache : Cache Key Value) (key : Key)

theorem moveToFront_map (value : Value) :
    (cache.map renameKey renameValue).moveToFront (renameKey key) (renameValue value) =
      (cache.moveToFront key value).map renameKey renameValue := by
  simp [map, moveToFront, unlink_map injective]

theorem get_map :
    (cache.map renameKey renameValue).get (renameKey key) =
      ((cache.get key).1.map renameKey renameValue, (cache.get key).2.map renameValue) := by
  cases found : lookup key cache.entries with
  | none =>
      rw [get_of_lookup_none _ _ found, get_of_lookup_none]
      · rfl
      · simp [map, lookup_map injective, found]
  | some value =>
      have mapped : lookup (renameKey key) (cache.map renameKey renameValue).entries =
          some (renameValue value) := by
        simp [map, lookup_map injective, found]
      rw [get_of_lookup_some _ _ found, get_of_lookup_some _ _ mapped,
        moveToFront_map injective]
      rfl

theorem remove_map :
    (cache.map renameKey renameValue).remove (renameKey key) =
      ((cache.remove key).1.map renameKey renameValue,
        (cache.remove key).2.map (Prod.map renameKey renameValue)) := by
  cases found : lookup key cache.entries with
  | none =>
      rw [remove_of_lookup_none _ _ found, remove_of_lookup_none]
      · rfl
      · simp [map, lookup_map injective, found]
  | some value =>
      have mapped : lookup (renameKey key) (cache.map renameKey renameValue).entries =
          some (renameValue value) := by
        simp [map, lookup_map injective, found]
      rw [remove_of_lookup_some _ _ found, remove_of_lookup_some _ _ mapped]
      simp [map, unlink_map injective]

theorem add_map (value : Value) :
    (cache.map renameKey renameValue).add (renameKey key) (renameValue value) =
      ((cache.add key value).1.map renameKey renameValue,
        (cache.add key value).2.map (Prod.map renameKey renameValue)) := by
  cases found : lookup key cache.entries with
  | none =>
      have last := List.getLast_map (Prod.map renameKey renameValue)
        ((key, value) :: cache.entries) (List.cons_ne_nil _ _)
      rw [add_of_lookup_none _ _ _ found, add_of_lookup_none]
      · simp only [map, len, List.length_map]
        split
        · rename_i overflow
          simp only [List.map_cons] at last
          simpa [overflow, List.map_dropLast] using last
        · rename_i overflow
          simp [overflow]
      · simp [map, lookup_map injective, found]
  | some old =>
      have mapped : lookup (renameKey key) (cache.map renameKey renameValue).entries =
          some (renameValue old) := by
        simp [map, lookup_map injective, found]
      rw [add_of_lookup_some _ _ _ found, add_of_lookup_some _ _ _ mapped,
        moveToFront_map injective]
      rfl

end Cache

end Rename

end XdsRelay.Lru
