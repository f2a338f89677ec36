import JumpscaleX.CacheCategory
import JumpscaleX.VFSKeys
import Mathlib.Data.List.Nodup
import Mathlib.Data.List.Dedup

/-!
# Cache categories as maps

The keys of all categories stand in one key space.  A run of calls treats the
categories as maps of their own exactly as long as every kept value stands at a key
without colons.
-/

namespace JumpscaleX.Caches

open Runs Stateful

/-- Neither the category nor the key has a colon. -/
def Plain (id key : String) : Prop :=
  ':' ∉ id.toList ∧ ':' ∉ key.toList

theorem toList_keyGet (category : Category) (key : String) :
    (category.keyGet key).toList = "cache:".toList ++ (category.id.toList ++ ':' :: key.toList) := by
  simp [Category.keyGet]

/-- Where a plain key of a category is kept, no other key is kept. -/
theorem keyGet_injective {category other : Category} {key otherKey : String}
    (plain : Plain category.id key) (same : category.keyGet key = other.keyGet otherKey) :
    other.id = category.id ∧ otherKey = key := by
  have chars := congrArg String.toList same
  rw [toList_keyGet, toList_keyGet] at chars
  have chars := List.append_cancel_left chars
  rcases List.append_eq_append_iff.mp chars with ⟨middle, front, back⟩ | ⟨middle, front, back⟩
  · cases middle with
    | nil =>
        rw [List.append_nil] at front
        rw [List.nil_append, List.cons.injEq] at back
        exact ⟨String.toList_inj.mp front, String.toList_inj.mp back.2.symm⟩
    | cons char middle =>
        rw [List.cons_append, List.cons.injEq] at back
        exact (plain.2 (by rw [back.2]; simp)).elim
  · cases middle with
    | nil =>
        rw [List.append_nil] at front
        rw [List.nil_append, List.cons.injEq] at back
        exact ⟨String.toList_inj.mp front.symm, String.toList_inj.mp back.2⟩
    | cons char middle =>
        rw [List.cons_append, List.cons.injEq] at back
        exact (plain.1 (by rw [front, ← back.1]; simp)).elim

/-- A key that is not plain is kept where a key of another category is kept. -/
theorem exists_alias {category : Category} {key : String} (colon : ¬ Plain category.id key) :
    ∃ (other : Category) (otherKey : String), other.keyGet otherKey = category.keyGet key ∧
      other.id ≠ category.id ∧ ¬ Plain other.id otherKey := by
  by_cases inId : ':' ∈ category.id.toList
  · obtain ⟨front, back, parted⟩ := List.append_of_mem inId
    refine ⟨⟨String.ofList front, 0⟩, String.ofList (back ++ ':' :: key.toList), ?_, ?_, ?_⟩
    · apply String.toList_inj.mp
      rw [toList_keyGet, toList_keyGet, parted, String.toList_ofList, String.toList_ofList]
      simp
    · intro same
      have sizes := congrArg (fun text : String => text.toList.length) same
      simp [parted] at sizes
    · intro plain
      exact plain.2 (by simp)
  · have inKey : ':' ∈ key.toList := by
      by_contra absent
      exact colon ⟨inId, absent⟩
    obtain ⟨front, back, parted⟩ := List.append_of_mem inKey
    refine ⟨⟨String.ofList (category.id.toList ++ ':' :: front), 0⟩, String.ofList back,
      ?_, ?_, ?_⟩
    · apply String.toList_inj.mp
      rw [toList_keyGet, toList_keyGet, parted, String.toList_ofList, String.toList_ofList]
      simp
    · intro same
      have sizes := congrArg (fun text : String => text.toList.length) same
      simp at sizes
    · intro plain
      exact plain.1 (by simp)

/-- A plain key is the last part of where it is kept. -/
theorem lastPart_keyGet {category : Category} {key : String} (plain : Plain category.id key) :
    Category.lastPart (category.keyGet key) = key := by
  have parted : PyText.splitChars ':' (category.keyGet key).toList =
      ["cache".toList, category.id.toList, key.toList] := by
    have front : (category.keyGet key).toList =
        "cache".toList ++ ':' :: (category.id.toList ++ ':' :: key.toList) := by
      rw [toList_keyGet]
      rfl
    rw [front, VFS.splitChars_append _ (by decide), VFS.splitChars_append _ plain.1,
      VFS.splitChars_of_not_mem plain.2]
  rw [Category.lastPart, PyText.split, parted]
  exact String.ofList_toList

/-! ## Maps -/

namespace Maps

variable {maps : Maps} {now time : Nat} {id key : String}

theorem isSome_of_live {value : PyVal} (live : maps.live now id key = some value) :
    (maps id key).isSome = true := by
  rw [Maps.live] at live
  split at live
  · rename_i found
    rw [found]
    rfl
  · cases live

/-- What is over stays over. -/
theorem live_mono (later : now ≤ time) (gone : maps.live now id key = none) :
    maps.live time id key = none := by
  rw [Maps.live] at gone ⊢
  split
  · rename_i value deadline found
    rw [found] at gone
    by_cases early : time < deadline
    · simp only [if_pos (Nat.lt_of_le_of_lt later early)] at gone
      cases gone
    · exact if_neg early
  · rfl

theorem live_put (entry : Option (PyVal × Nat)) (otherId otherKey : String) :
    (maps.put id key entry).live time otherId otherKey =
      if otherId = id ∧ otherKey = key then
        entry.bind (fun entry => if time < entry.2 then some entry.1 else none)
      else maps.live time otherId otherKey := by
  by_cases same : otherId = id ∧ otherKey = key
  · rw [Maps.live, Maps.put, if_pos same, if_pos same]
    cases entry <;> rfl
  · rw [Maps.live, Maps.put, if_neg same, if_neg same, Maps.live]

theorem live_clear (otherId otherKey : String) :
    (maps.clear id).live time otherId otherKey =
      if otherId = id then none else maps.live time otherId otherKey := by
  by_cases same : otherId = id
  · rw [Maps.live, Maps.clear, if_pos same, if_pos same]
  · rw [Maps.live, Maps.clear, if_neg same, if_neg same, Maps.live]

end Maps

/-! ## Databases that represent maps -/

variable {redis : Redis}

/-- The database has stored what is live. -/
def Stands (time : Nat) (stored : Option (Int × PyVal)) : Option PyVal → Prop
  | some value => ∃ epoch, stored = some (epoch, value) ∧ ((time / 1000 : Nat) : Int) ≤ epoch
  | none => stored = none

/-- What every call keeps. -/
structure Consistent (world : World redis) : Prop where
  represents : world.Represents
  plain : ∀ id key, (world.maps id key).isSome = true → Plain id key
  owned : ∀ time, world.now ≤ time → ∀ item, (redis.get world.state time item).isSome = true →
    ∃ (category : Category) (key : String), item = category.keyGet key

theorem Consistent.later {now later : Nat} {state : redis.State} {maps : Maps}
    (consistent : Consistent ⟨now, state, maps⟩) (passed : now ≤ later) :
    Consistent ⟨later, state, maps⟩ :=
  ⟨fun time reached => consistent.represents time (Nat.le_trans passed reached),
    consistent.plain,
    fun time reached => consistent.owned time (Nat.le_trans passed reached)⟩

/-- A key of a category that the pattern of another one fits. -/
def Reached (redis : Redis) (maps : Maps) (now : Nat) (category other : Category)
    (key : String) : Prop :=
  (maps.live now other.id key).isSome = true ∧
    redis.globs category.pattern (other.keyGet key) = true

section

variable {now : Nat} {state : redis.State} {maps : Maps}
  (consistent : Consistent ⟨now, state, maps⟩)
include consistent

theorem Consistent.plain_of_live {time : Nat} {id key : String} {value : PyVal}
    (live : maps.live time id key = some value) : Plain id key :=
  consistent.plain id key (Maps.isSome_of_live live)

/-- A value of the maps is in the database. -/
theorem Consistent.get_of_live {time : Nat} (reached : now ≤ time) {category : Category}
    {key : String} {value : PyVal} (live : maps.live time category.id key = some value) :
    ∃ epoch, redis.get state time (category.keyGet key) = some (epoch, value) ∧
      ((time / 1000 : Nat) : Int) ≤ epoch := by
  have entry := consistent.represents time reached category key
  rw [live] at entry
  exact entry

theorem Consistent.get_of_not_live {time : Nat} (reached : now ≤ time) {category : Category}
    {key : String} (gone : maps.live time category.id key = none) :
    redis.get state time (category.keyGet key) = none := by
  have entry := consistent.represents time reached category key
  rw [gone] at entry
  exact entry

theorem Consistent.isSome_get {time : Nat} (reached : now ≤ time) (category : Category)
    (key : String) :
    (redis.get state time (category.keyGet key)).isSome =
      (maps.live time category.id key).isSome := by
  cases live : maps.live time category.id key with
  | none =>
      rw [consistent.get_of_not_live reached live]
      rfl
  | some value =>
      obtain ⟨epoch, found, _⟩ := consistent.get_of_live reached live
      rw [found]
      rfl

/-- Removing a key removes it from its map only. -/
theorem Consistent.delete (category : Category) (key : String) :
    Consistent ⟨now, category.delete redis state now key, maps.put category.id key none⟩ := by
  have gets : ∀ time, now ≤ time → ∀ item,
      redis.get (category.delete redis state now key) time item =
        if item = category.keyGet key then none else redis.get state time item :=
    fun time reached item => redis.get_delete state now _ time reached item
  refine ⟨?_, ?_, ?_⟩
  · intro time reached other otherKey
    change Stands time (redis.get (category.delete redis state now key) time
      (other.keyGet otherKey)) ((maps.put category.id key none).live time other.id otherKey)
    rw [Maps.live_put, gets time reached]
    by_cases same : other.id = category.id ∧ otherKey = key
    · rw [if_pos same]
      have sameItem : other.keyGet otherKey = category.keyGet key := by
        rw [Category.keyGet, Category.keyGet, same.1, same.2]
      exact if_pos sameItem
    · rw [if_neg same]
      cases live : maps.live time other.id otherKey with
      | none =>
          rw [consistent.get_of_not_live reached live, ite_self]
          rfl
      | some value =>
          have apart : ¬ other.keyGet otherKey = category.keyGet key := by
            intro sameItem
            have parts := keyGet_injective (consistent.plain_of_live live) sameItem
            exact same ⟨parts.1.symm, parts.2.symm⟩
          rw [if_neg apart]
          exact consistent.get_of_live reached live
  · intro otherId otherKey some
    refine consistent.plain otherId otherKey ?_
    change ((maps.put category.id key none) otherId otherKey).isSome = true at some
    rw [Maps.put] at some
    split at some
    · cases some
    · exact some
  · intro time reached item there
    change (redis.get (category.delete redis state now key) time item).isSome = true at there
    rw [gets time reached] at there
    split at there
    · cases there
    · exact consistent.owned time reached item there

/-- A value that the database takes. -/
theorem Consistent.set (category : Category) (key : String) (value : PyVal)
    (expire : Option Int)
    (accepted : redis.accepts (expire.getD category.expiration) = true) :
    ∃ after, category.set redis state now key value expire = .ok after ∧
      (Plain category.id key → Consistent ⟨now, after, maps.put category.id key
        (some (value, now + 1000 * (expire.getD category.expiration).toNat))⟩) ∧
      (¬ Plain category.id key → ¬ World.Represents ⟨now, after, maps.put category.id key
        (some (value, now + 1000 * (expire.getD category.expiration).toNat))⟩) := by
  have positive := redis.pos_of_accepts _ accepted
  obtain ⟨after, done, gets⟩ := redis.set_accepted state now (category.keyGet key)
    ((now / 1000 : Nat) + expire.getD category.expiration, value) _ accepted
  have written : category.set redis state now key value expire = .ok after := done
  refine ⟨after, written, ?_⟩
  generalize expire.getD category.expiration = ex at *
  constructor
  · intro plain
    refine ⟨?_, ?_, ?_⟩
    · intro time reached other otherKey
      change Stands time (redis.get after time (other.keyGet otherKey))
        ((maps.put category.id key (some (value, now + 1000 * ex.toNat))).live time other.id
          otherKey)
      rw [Maps.live_put, gets time reached]
      by_cases same : other.id = category.id ∧ otherKey = key
      · have sameItem : other.keyGet otherKey = category.keyGet key := by
          rw [Category.keyGet, Category.keyGet, same.1, same.2]
        rw [if_pos same, if_pos sameItem, Option.bind_some]
        by_cases early : time < now + 1000 * ex.toNat
        · simp only [if_pos early]
          refine ⟨_, rfl, ?_⟩
          omega
        · simp only [if_neg early]
          rfl
      · have apart : ¬ other.keyGet otherKey = category.keyGet key := by
          intro sameItem
          exact same (keyGet_injective plain sameItem.symm)
        rw [if_neg same, if_neg apart]
        exact consistent.represents time reached other otherKey
    · intro otherId otherKey some
      change ((maps.put category.id key _) otherId otherKey).isSome = true at some
      rw [Maps.put] at some
      split at some
      · rename_i same
        rw [same.1, same.2]
        exact plain
      · exact consistent.plain otherId otherKey some
    · intro time reached item there
      change (redis.get after time item).isSome = true at there
      rw [gets time reached] at there
      split at there
      · rename_i same
        exact ⟨category, key, same⟩
      · exact consistent.owned time reached item there
  · -- Another key is kept at the same place, and has no value of its own.
    intro colon represents
    obtain ⟨other, otherKey, sameItem, otherId, otherColon⟩ := exists_alias colon
    have entry := represents now (Nat.le_refl now) other otherKey
    have gone : maps.live now other.id otherKey = none := by
      cases live : maps.live now other.id otherKey with
      | none => rfl
      | some value => exact (otherColon (consistent.plain_of_live live)).elim
    change Stands now (redis.get after now (other.keyGet otherKey))
      ((maps.put category.id key (some (value, now + 1000 * ex.toNat))).live now other.id
        otherKey) at entry
    have early : now < now + 1000 * ex.toNat := by omega
    rw [Maps.live_put, if_neg (fun same => otherId same.1), gone, gets now (Nat.le_refl now),
      if_pos sameItem, if_pos early] at entry
    cases entry

/-- What the pattern of a category finds. -/
theorem Consistent.mem_keys {category : Category} {item : String} :
    item ∈ redis.keys state now category.pattern ↔
      ∃ other key, Reached redis maps now category other key ∧ item = other.keyGet key := by
  rw [redis.mem_keys]
  constructor
  · rintro ⟨there, fits⟩
    obtain ⟨other, key, isItem⟩ := consistent.owned now (Nat.le_refl now) item there
    rw [isItem] at there fits
    rw [consistent.isSome_get (Nat.le_refl now)] at there
    exact ⟨other, key, ⟨there, fits⟩, isItem⟩
  · rintro ⟨other, key, ⟨live, fits⟩, rfl⟩
    rw [consistent.isSome_get (Nat.le_refl now)]
    exact ⟨live, fits⟩

theorem Consistent.plain_of_reached {category other : Category} {key : String}
    (reached : Reached redis maps now category other key) : Plain other.id key := by
  obtain ⟨value, live⟩ := Option.isSome_iff_exists.mp reached.1
  exact consistent.plain_of_live live

theorem Consistent.mem_listKeys {category : Category} {key : String} :
    key ∈ category.listKeys redis state now ↔
      ∃ other, Reached redis maps now category other key := by
  rw [Category.listKeys, List.mem_map]
  constructor
  · rintro ⟨item, inKeys, isKey⟩
    obtain ⟨other, otherKey, reached, rfl⟩ := consistent.mem_keys.mp inKeys
    rw [lastPart_keyGet (consistent.plain_of_reached reached)] at isKey
    subst isKey
    exact ⟨other, reached⟩
  · rintro ⟨other, reached⟩
    exact ⟨other.keyGet key, consistent.mem_keys.mpr ⟨other, key, reached, rfl⟩,
      lastPart_keyGet (consistent.plain_of_reached reached)⟩

/-- No key is listed twice when the pattern finds it in one category only. -/
theorem Consistent.nodup_listKeys_iff {category : Category} :
    (category.listKeys redis state now).Nodup ↔
      ∀ key first second, Reached redis maps now category first key →
        Reached redis maps now category second key → first.id = second.id := by
  rw [Category.listKeys, List.nodup_map_iff_inj_on (redis.nodup_keys state now _)]
  constructor
  · intro injective key first second firstReached secondReached
    have sameItem := injective (first.keyGet key)
      (consistent.mem_keys.mpr ⟨first, key, firstReached, rfl⟩) (second.keyGet key)
      (consistent.mem_keys.mpr ⟨second, key, secondReached, rfl⟩)
      (by rw [lastPart_keyGet (consistent.plain_of_reached firstReached),
        lastPart_keyGet (consistent.plain_of_reached secondReached)])
    exact (keyGet_injective (consistent.plain_of_reached firstReached) sameItem).1.symm
  · intro alone first inFirst second inSecond same
    obtain ⟨firstOwner, firstKey, firstReached, rfl⟩ := consistent.mem_keys.mp inFirst
    obtain ⟨secondOwner, secondKey, secondReached, rfl⟩ := consistent.mem_keys.mp inSecond
    rw [lastPart_keyGet (consistent.plain_of_reached firstReached),
      lastPart_keyGet (consistent.plain_of_reached secondReached)] at same
    subst same
    rw [Category.keyGet, Category.keyGet, alone firstKey _ _ firstReached secondReached]

end

/-- What removing some keys leaves. -/
theorem get_deleteAll {now : Nat} (category : Category) (keys : List String) {time : Nat}
    (reached : now ≤ time) (state : redis.State) (item : String) :
    redis.get (keys.foldl (fun state key => category.delete redis state now key) state) time item =
      if ∃ key ∈ keys, item = category.keyGet key then none else redis.get state time item := by
  induction keys generalizing state with
  | nil => simp
  | cons key keys induction =>
      rw [List.foldl_cons, induction, Category.delete, redis.get_delete _ _ _ _ reached]
      by_cases later : ∃ key ∈ keys, item = category.keyGet key
      · obtain ⟨other, member, same⟩ := later
        rw [if_pos ⟨other, member, same⟩, if_pos ⟨other, List.mem_cons_of_mem _ member, same⟩]
      · rw [if_neg later]
        by_cases same : item = category.keyGet key
        · rw [if_pos same, if_pos ⟨key, List.mem_cons_self, same⟩]
        · rw [if_neg same, if_neg]
          rintro ⟨other, member, sameItem⟩
          rcases List.mem_cons.mp member with isKey | member
          · exact same (isKey ▸ sameItem)
          · exact later ⟨other, member, sameItem⟩

/-- The pattern of a category finds each of its own keys. -/
def FindsAll (redis : Redis) (maps : Maps) (now : Nat) (category : Category) : Prop :=
  ∀ key, (maps.live now category.id key).isSome = true →
    ∃ other, Reached redis maps now category other key

section

variable {now : Nat} {state : redis.State} {maps : Maps}
  (consistent : Consistent ⟨now, state, maps⟩)
include consistent

/-- A reset removes exactly the keys of its category when its pattern finds them all. -/
theorem Consistent.reset {category : Category} (finds : FindsAll redis maps now category) :
    Consistent ⟨now, category.reset redis state now, maps.clear category.id⟩ := by
  have gets : ∀ time, now ≤ time → ∀ item,
      redis.get (category.reset redis state now) time item =
        if ∃ key ∈ category.listKeys redis state now, item = category.keyGet key then none
        else redis.get state time item :=
    fun time reached item => get_deleteAll category _ reached state item
  refine ⟨?_, ?_, ?_⟩
  · intro time reached other otherKey
    change Stands time (redis.get (category.reset redis state now) time (other.keyGet otherKey))
      ((maps.clear category.id).live time other.id otherKey)
    rw [Maps.live_clear, gets time reached]
    by_cases same : other.id = category.id
    · have sameItem : other.keyGet otherKey = category.keyGet otherKey := by
        rw [Category.keyGet, Category.keyGet, same]
      simp only [if_pos same]
      split
      · rfl
      · rename_i notListed
        apply consistent.get_of_not_live reached
        apply Maps.live_mono reached
        by_contra live
        have listed := consistent.mem_listKeys.mpr
          (finds otherKey (by rw [← same]; exact Option.isSome_iff_ne_none.mpr live))
        exact notListed ⟨otherKey, listed, sameItem⟩
    · rw [if_neg same]
      cases live : maps.live time other.id otherKey with
      | none =>
          rw [consistent.get_of_not_live reached live, ite_self]
          rfl
      | some value =>
          have kept : ¬ ∃ key ∈ category.listKeys redis state now,
              other.keyGet otherKey = category.keyGet key := by
            rintro ⟨key, _, sameItem⟩
            exact same (keyGet_injective (consistent.plain_of_live live) sameItem).1.symm
          rw [if_neg kept]
          exact consistent.get_of_live reached live
  · intro otherId otherKey some
    refine consistent.plain otherId otherKey ?_
    change ((maps.clear category.id) otherId otherKey).isSome = true at some
    rw [Maps.clear] at some
    split at some
    · cases some
    · exact some
  · intro time reached item there
    change (redis.get (category.reset redis state now) time item).isSome = true at there
    rw [gets time reached] at there
    split at there
    · cases there
    · exact consistent.owned time reached item there

theorem Consistent.finds_of_reset {category : Category}
    (represents : World.Represents
      ⟨now, category.reset redis state now, maps.clear category.id⟩) :
    FindsAll redis maps now category := by
  intro key live
  by_contra missed
  obtain ⟨value, live⟩ := Option.isSome_iff_exists.mp live
  have gone := represents now (Nat.le_refl now) category key
  change Stands now (redis.get (category.reset redis state now) now (category.keyGet key))
    ((maps.clear category.id).live now category.id key) at gone
  have notListed : ¬ ∃ other ∈ category.listKeys redis state now,
      category.keyGet key = category.keyGet other := by
    rintro ⟨other, listed, sameItem⟩
    rw [(keyGet_injective (consistent.plain_of_live live) sameItem).2] at listed
    exact missed (consistent.mem_listKeys.mp listed)
  obtain ⟨epoch, found, _⟩ := consistent.get_of_live (Nat.le_refl now) live
  rw [Maps.live_clear, if_pos rfl, Category.reset,
    get_deleteAll category _ (Nat.le_refl now), if_neg notListed, found] at gone
  cases gone

end

/-! ## Calls of a method -/

/-- The method returns a value that can be kept, after no more than `retry` calls. -/
def Keeps (method : Nat → Except Exn PyVal) (retry : Int) : Prop :=
  ∃ nr, nr < retry.toNat ∧ (∀ early, early < nr → ∃ error, method early = .error error) ∧
    ∃ val, method nr = .ok val ∧ unusable val = false

/-- The loop ends with the first call that does not fail, or with the last one. -/
theorem callMethod_spec (method : Nat → Except Exn PyVal) {left : Nat} (tries : 0 < left)
    (nr : Nat) :
    ∃ calls, callMethod method left nr = (some (method (calls - 1)), calls) ∧ nr < calls ∧
      calls ≤ nr + left ∧
      (∀ early, nr ≤ early → early + 1 < calls → ∃ error, method early = .error error) ∧
      ∀ error, method (calls - 1) = .error error → calls = nr + left := by
  induction left generalizing nr with
  | zero => cases tries
  | succ left induction =>
      cases outcome : method nr with
      | ok val =>
          refine ⟨nr + 1, ?_, by omega, by omega, by omega, ?_⟩
          · simp only [callMethod, outcome, Nat.add_sub_cancel]
          · intro error failed
            rw [Nat.add_sub_cancel, outcome] at failed
            cases failed
      | error error =>
          by_cases last : left = 0
          · refine ⟨nr + 1, ?_, by omega, by omega, by omega, by omega⟩
            simp only [callMethod, outcome, if_pos last, Nat.add_sub_cancel]
          · obtain ⟨calls, ended, called, most, failed, final⟩ := induction (by omega) (nr + 1)
            refine ⟨calls, ?_, by omega, by omega, ?_, ?_⟩
            · simp only [callMethod, outcome, if_neg last, ended]
            · intro early reached notLast
              by_cases first : early = nr
              · rw [first]
                exact ⟨error, outcome⟩
              · exact failed early (by omega) notLast
            · intro error failed
              rw [final error failed]
              omega

/-- A `get` that calls its method tries it, and keeps what it returns at a plain key
for a time that the database takes. -/
structure SoundMethod (redis : Redis) (category : Category) (call : GetCall)
    (method : Nat → Except Exn PyVal) : Prop where
  tries : 0 < call.retry
  kept : Keeps method call.retry →
    Plain category.id call.key ∧
      redis.accepts (call.expire.getD category.expiration) = true

section

variable {now : Nat} {state : redis.State} {maps : Maps}
  (consistent : Consistent ⟨now, state, maps⟩)
include consistent

/-- A sound `get` that misses keeps the database and the maps in step. -/
theorem Consistent.fetch {category : Category} {call : GetCall}
    (sound : ∀ method, call.method = some method → SoundMethod redis category call method) :
    Consistent ⟨now + call.took, (category.fetch redis state now call).state,
      maps.keep now category call (category.fetch redis state now call).reply
        (category.fetch redis state now call).calls⟩ := by
  have later := consistent.later (Nat.le_add_right now call.took)
  cases isMethod : call.method with
  | none =>
      simp only [Category.fetch, isMethod]
      exact later
  | some method =>
      have sound := sound method isMethod
      obtain ⟨calls, ended, called, most, failed, _⟩ :=
        callMethod_spec method (Int.pos_iff_toNat_pos.mp sound.tries) 0
      obtain ⟨last, rfl⟩ : ∃ last, calls = last + 1 := ⟨calls - 1, by omega⟩
      rw [Nat.add_sub_cancel] at ended
      cases outcome : method last with
      | error error =>
          simp only [Category.fetch, isMethod, ended, outcome]
          split <;> exact later
      | ok val =>
          rw [outcome] at ended
          by_cases bad : unusable val = true
          · simp only [Category.fetch, isMethod, ended, if_pos bad]
            exact later
          · have keeps : Keeps method call.retry :=
              ⟨last, by omega, fun early isEarly => failed early (by omega) (by omega),
                val, outcome, by simpa using bad⟩
            obtain ⟨plain, accepted⟩ := sound.kept keeps
            obtain ⟨after, done, kept, _⟩ := later.set category call.key val
              (some (call.expire.getD category.expiration)) accepted
            simp only [Category.fetch, isMethod, ended, if_neg bad, done]
            exact kept plain

/-- A `get` that misses answers with what its method returns. -/
theorem Consistent.answers_of_sound {category : Category} {call : GetCall}
    {method : Nat → Except Exn PyVal} (isMethod : call.method = some method)
    (sound : SoundMethod redis category call method) :
    Called call method (category.fetch redis state now call).reply
      (category.fetch redis state now call).calls := by
  have later := consistent.later (Nat.le_add_right now call.took)
  have tries := Int.pos_iff_toNat_pos.mp sound.tries
  obtain ⟨calls, ended, called, most, failed, final⟩ := callMethod_spec method tries 0
  rw [Nat.zero_add] at most
  have atMost : calls ≤ max 1 call.retry.toNat := Nat.le_trans most (Nat.le_max_right _ _)
  have early : ∀ nr, nr + 1 < calls → ∃ error, method nr = .error error :=
    fun nr early => failed nr (Nat.zero_le nr) early
  cases outcome : method (calls - 1) with
  | error error =>
      have allTries : calls = max 1 call.retry.toNat := by
        have last := final error outcome
        omega
      rw [outcome] at ended
      simp only [Category.fetch, isMethod, ended]
      refine ⟨called, atMost, early, ?_, ?_⟩
      · intro val returned
        rw [outcome] at returned
        cases returned
      · intro other raised
        rw [outcome] at raised
        cases raised
        exact ⟨allTries, rfl⟩
  | ok val =>
      rw [outcome] at ended
      by_cases bad : unusable val = true
      · simp only [Category.fetch, isMethod, ended, if_pos bad]
        refine ⟨called, atMost, early, ?_, ?_⟩
        · intro other returned
          rw [outcome] at returned
          cases returned
          rw [if_pos bad]
        · intro error raised
          rw [outcome] at raised
          cases raised
      · have keeps : Keeps method call.retry :=
          ⟨calls - 1, by omega, fun early isEarly => failed early (by omega) (by omega),
            val, outcome, by simpa using bad⟩
        obtain ⟨after, done, _⟩ := later.set category call.key val
          (some (call.expire.getD category.expiration)) (sound.kept keeps).2
        simp only [Category.fetch, isMethod, ended, if_neg bad, done]
        refine ⟨called, atMost, early, ?_, ?_⟩
        · intro other returned
          rw [outcome] at returned
          cases returned
          rw [if_neg bad]
        · intro error raised
          rw [outcome] at raised
          cases raised

/-- A `get` that answers with what its method returns, and keeps it, is sound. -/
theorem Consistent.sound_of_answers {category : Category} {call : GetCall}
    {method : Nat → Except Exn PyVal} (isMethod : call.method = some method)
    (answers : Called call method (category.fetch redis state now call).reply
      (category.fetch redis state now call).calls)
    (represents : World.Represents ⟨now + call.took, (category.fetch redis state now call).state,
      maps.keep now category call (category.fetch redis state now call).reply
        (category.fetch redis state now call).calls⟩) :
    SoundMethod redis category call method := by
  have later := consistent.later (Nat.le_add_right now call.took)
  have tries : 0 < call.retry := by
    by_contra none
    have noTry : call.retry.toNat = 0 := by omega
    have called := answers.called
    simp only [Category.fetch, isMethod, noTry, callMethod] at called
    cases called
  refine ⟨tries, ?_⟩
  rintro ⟨nr, isTry, allFailed, val, returned, good⟩
  obtain ⟨calls, ended, called, most, failed, final⟩ :=
    callMethod_spec method (Int.pos_iff_toNat_pos.mp tries) 0
  -- The loop ended with this call.
  have isLast : calls - 1 = nr := by
    rcases Nat.lt_trichotomy (calls - 1) nr with less | same | more
    · obtain ⟨error, outcome⟩ := allFailed _ less
      have last := final error outcome
      omega
    · exact same
    · obtain ⟨error, outcome⟩ := failed nr (Nat.zero_le nr) (by omega)
      rw [returned] at outcome
      cases outcome
  have bad : ¬ unusable val = true := by simp [good]
  obtain ⟨last, rfl⟩ : ∃ last, calls = last + 1 := ⟨calls - 1, by omega⟩
  rw [isLast, returned] at ended
  cases accepts : redis.accepts (call.expire.getD category.expiration) with
  | true =>
      obtain ⟨after, done, _, broken⟩ := later.set category call.key val
        (some (call.expire.getD category.expiration)) accepts
      simp only [Category.fetch, isMethod, ended, if_neg bad, done] at represents
      refine ⟨?_, rfl⟩
      by_contra colon
      exact broken colon represents
  | false =>
      obtain ⟨error, rejected⟩ := redis.set_rejected state (now + call.took)
        (category.keyGet call.key)
        (((now + call.took) / 1000 : Nat) + call.expire.getD category.expiration, val) _ accepts
      have done : category.set redis state (now + call.took) call.key val
          (some (call.expire.getD category.expiration)) = .error error := rejected
      have reply := answers.returned
      simp only [Category.fetch, isMethod, ended, if_neg bad, done] at reply
      rw [isLast] at reply
      have wrong := reply val returned
      rw [if_neg bad] at wrong
      cases wrong

/-- A value that is good is returned. -/
theorem Consistent.get_hit {category : Category} {call : GetCall} {value : PyVal}
    (hit : (maps.refreshed category call).live now category.id call.key = some value) :
    maps.refreshed category call = maps ∧
      category.get redis state now call = ⟨.ok (.value value), 0, state⟩ := by
  by_cases refresh : call.refresh = true
  · rw [Maps.refreshed, if_pos refresh, Maps.live_put, if_pos ⟨rfl, rfl⟩] at hit
    cases hit
  · rw [Maps.refreshed, if_neg refresh] at hit
    refine ⟨if_neg refresh, ?_⟩
    obtain ⟨epoch, found, good⟩ := consistent.get_of_live (Nat.le_refl now) hit
    rw [Category.get, if_neg refresh]
    simp only [found, if_neg (Int.not_lt.mpr good)]

/-- Without a good value it goes on with the method. -/
theorem Consistent.get_miss {category : Category} {call : GetCall}
    (miss : (maps.refreshed category call).live now category.id call.key = none) :
    ∃ between, Consistent ⟨now, between, maps.refreshed category call⟩ ∧
      category.get redis state now call = category.fetch redis between now call := by
  by_cases refresh : call.refresh = true
  · refine ⟨category.delete redis state now call.key, ?_, ?_⟩
    · rw [Maps.refreshed, if_pos refresh]
      exact consistent.delete category call.key
    · rw [Category.get, if_pos refresh]
  · rw [Maps.refreshed, if_neg refresh] at miss ⊢
    refine ⟨state, consistent, ?_⟩
    rw [Category.get, if_neg refresh]
    simp only [consistent.get_of_not_live (Nat.le_refl now) miss]

end

/-! ## Runs -/

/-- The pattern of a category finds its own keys and no others, each of them once. -/
structure FindsOwn (redis : Redis) (maps : Maps) (now : Nat) (category : Category) : Prop where
  own : ∀ key, (∃ other, Reached redis maps now category other key) ↔
    (maps.live now category.id key).isSome = true
  once : ∀ key first second, Reached redis maps now category first key →
    Reached redis maps now category second key → first.id = second.id

/-- A value is kept at a plain key for a time that the database takes, a method is tried,
and a listing or a reset finds the keys of its category. -/
def Sound (world : World redis) (action : Action) : Prop :=
  let now := world.now + action.wait
  let category := action.category
  match action.call with
  | .set key _ expire =>
      Plain category.id key ∧ redis.accepts (expire.getD category.expiration) = true
  | .get call =>
      (world.maps.refreshed category call).live now category.id call.key = none →
        ∀ method, call.method = some method → SoundMethod redis category call method
  | .delete _ => True
  | .isThere _ => True
  | .list => FindsOwn redis world.maps now category
  | .reset => FindsAll redis world.maps now category

/-- Sound actions keep the database and the maps in step. -/
theorem Consistent.step {world : World redis} (consistent : Consistent world) {action : Action}
    (sound : Sound world action) : Consistent (world.step action) := by
  obtain ⟨now, state, maps⟩ := world
  obtain ⟨wait, category, call⟩ := action
  have later := consistent.later (Nat.le_add_right now wait)
  cases call with
  | set key value expire =>
      obtain ⟨after, done, kept, _⟩ := later.set category key value expire sound.2
      simp only [World.step, World.called, World.waited, perform, done, World.result, Maps.after,
        Call.took, Nat.add_zero]
      exact kept sound.1
  | get call =>
      simp only [World.step, World.called, World.waited, perform, World.result, Maps.after,
        Call.took]
      cases found : (maps.refreshed category call).live (now + wait) category.id call.key with
      | some value =>
          obtain ⟨same, got⟩ := later.get_hit found
          simp only [same, got, Maps.keep]
          exact later.later (Nat.le_add_right _ _)
      | none =>
          obtain ⟨between, consistentBetween, got⟩ := later.get_miss found
          simp only [got]
          exact consistentBetween.fetch (sound found)
  | delete key => exact later.delete category key
  | isThere key => exact later
  | list => exact later
  | reset => exact later.reset sound

/-- An action does what the maps say exactly when it is sound. -/
theorem Consistent.returns_iff_sound {world : World redis} (consistent : Consistent world)
    (action : Action) : AsClaimed world action ↔ Sound world action := by
  have stepped : Sound world action → Consistent (world.step action) := consistent.step
  obtain ⟨now, state, maps⟩ := world
  obtain ⟨wait, category, call⟩ := action
  have later := consistent.later (Nat.le_add_right now wait)
  constructor
  · rintro ⟨returns, represents⟩
    cases call with
    | set key value expire =>
        cases accepts : redis.accepts (expire.getD category.expiration) with
        | true =>
            obtain ⟨after, done, _, broken⟩ := later.set category key value expire accepts
            simp only [World.called, World.waited, perform, done, World.result, Maps.after,
              Call.took, Nat.add_zero] at represents
            refine ⟨?_, accepts⟩
            by_contra colon
            exact broken colon represents
        | false =>
            obtain ⟨error, rejected⟩ := redis.set_rejected state (now + wait)
              (category.keyGet key)
              (((now + wait) / 1000 : Nat) + expire.getD category.expiration, value) _ accepts
            have done : category.set redis state (now + wait) key value expire =
                .error error := rejected
            simp only [World.waited, perform, done, World.result, Maps.Returns] at returns
            cases returns
    | get call =>
        intro miss method isMethod
        simp only [World.called, World.waited, perform, World.result, Maps.Returns, Maps.after,
          Maps.Answers, Call.took] at returns represents
        obtain ⟨between, consistentBetween, got⟩ := later.get_miss miss
        simp only [got, miss, isMethod] at returns represents
        exact consistentBetween.sound_of_answers isMethod returns represents
    | delete key => trivial
    | isThere key => trivial
    | list =>
        obtain ⟨nodup, listed⟩ := returns
        refine ⟨?_, later.nodup_listKeys_iff.mp nodup⟩
        intro key
        rw [← later.mem_listKeys]
        exact listed key
    | reset => exact later.finds_of_reset represents
  · intro sound
    refine ⟨?_, (stepped sound).represents⟩
    cases call with
    | set key value expire =>
        obtain ⟨after, done, _⟩ := later.set category key value expire sound.2
        simp only [World.waited, perform, done, World.result, Maps.Returns]
    | get call =>
        simp only [World.waited, perform, World.result, Maps.Returns, Maps.Answers]
        cases found : (maps.refreshed category call).live (now + wait) category.id call.key with
        | some value =>
            obtain ⟨_, got⟩ := later.get_hit found
            simp only [got, and_self]
        | none =>
            obtain ⟨between, consistentBetween, got⟩ := later.get_miss found
            simp only [got]
            cases isMethod : call.method with
            | none =>
                simp only [Category.fetch, isMethod]
                exact ⟨trivial, _, rfl⟩
            | some method =>
                exact consistentBetween.answers_of_sound isMethod (sound found method isMethod)
    | delete key => rfl
    | isThere key => exact later.isSome_get (Nat.le_refl _) category key
    | list =>
        refine ⟨later.nodup_listKeys_iff.mpr sound.once, ?_⟩
        intro key
        exact later.mem_listKeys.trans (sound.own key)
    | reset => rfl

/-- An empty database represents empty maps. -/
theorem consistent_start : Consistent (World.start : World redis) := by
  refine ⟨?_, ?_, ?_⟩
  · intro time _ category key
    exact redis.get_empty time _
  · intro id key some
    cases some
  · intro time _ item there
    rw [World.start, redis.get_empty] at there
    cases there

/-- Along a run the categories are maps of their own exactly as long as every action is
sound. -/
theorem categories_are_maps_iff (redis : Redis) (actions : List Action) :
    Along AsClaimed World.step (World.start : World redis) actions ↔
      Along Sound World.step (World.start : World redis) actions :=
  along_iff Consistent consistent_start
    (fun _ action consistent => consistent.returns_iff_sound action)
    (fun _ _ consistent sound => consistent.step sound)

/-- Categories without the characters of patterns always find their own keys. -/
theorem Consistent.findsOwn {world : World redis} (consistent : Consistent world)
    {category : Category} (literal : ∀ char ∈ category.id.toList, char ∉ special) :
    FindsOwn redis world.maps world.now category ∧
      FindsAll redis world.maps world.now category := by
  have front : category.pattern = ("cache:" ++ category.id ++ ":") ++ "*" := by
    apply String.toList_inj.mp
    simp [Category.pattern]
  have plainFront : ∀ char ∈ ("cache:" ++ category.id ++ ":").toList, char ∉ special := by
    intro char member
    simp only [String.toList_append, List.mem_append] at member
    have plainWord : ("cache:".toList ++ ":".toList).all (fun char => decide (char ∉ special)) =
        true := by decide
    rw [List.all_append, Bool.and_eq_true, List.all_eq_true, List.all_eq_true] at plainWord
    rcases member with (member | member) | member
    · exact of_decide_eq_true (plainWord.1 char member)
    · exact literal char member
    · exact of_decide_eq_true (plainWord.2 char member)
  have fits : ∀ item, redis.globs category.pattern item = true ↔
      "cache:".toList ++ (category.id.toList ++ [':']) <+: item.toList := by
    intro item
    rw [front, redis.globs_star _ plainFront]
    simp
  have same : ∀ {other : Category} {key : String},
      Reached redis world.maps world.now category other key → other.id = category.id := by
    intro other key reached
    have plain := consistent.plain_of_reached reached
    have fit := (fits _).mp reached.2
    rw [toList_keyGet, List.prefix_append_right_inj] at fit
    obtain ⟨rest, whole⟩ := fit
    rw [List.append_assoc, List.singleton_append] at whole
    have sameItem : other.keyGet key = category.keyGet (String.ofList rest) := by
      apply String.toList_inj.mp
      rw [toList_keyGet, toList_keyGet, ← whole]
      simp only [String.toList_ofList]
    exact (keyGet_injective plain sameItem).1.symm
  have found : ∀ key, (world.maps.live world.now category.id key).isSome = true →
      Reached redis world.maps world.now category category key := by
    intro key live
    refine ⟨live, (fits _).mpr ⟨key.toList, ?_⟩⟩
    rw [toList_keyGet]
    simp
  refine ⟨⟨?_, ?_⟩, fun key live => ⟨category, found key live⟩⟩
  · intro key
    constructor
    · rintro ⟨other, reached⟩
      rw [← same reached]
      exact reached.1
    · intro live
      exact ⟨category, found key live⟩
  · intro key first second firstReached secondReached
    rw [same firstReached, same secondReached]

/-! ## A database -/

/-- The entries of a database, the latest first. -/
def expiringGet (state : List (String × Pickled × Nat)) (now : Nat) (key : String) :
    Option Pickled :=
  (state.lookup key).bind (fun entry => if now < entry.2 then some entry.1 else none)

/-- Whether a pattern that ends in a star fits a key. -/
def frontGlob (pattern key : String) : Bool :=
  pattern.toList.dropLast.isPrefixOf key.toList

theorem lookup_cons_eq (entry : String × Pickled × Nat) (state : List (String × Pickled × Nat))
    (key : String) :
    (entry :: state).lookup key = if key = entry.1 then some entry.2 else state.lookup key := by
  by_cases same : key = entry.1
  · rw [if_pos same, same, List.lookup_cons_self]
  · rw [if_neg same, List.lookup_cons, beq_eq_false_iff_ne.mpr same]

theorem lookup_filter (state : List (String × Pickled × Nat)) (key other : String) :
    (state.filter (fun entry => entry.1 ≠ key)).lookup other =
      if other = key then none else state.lookup other := by
  induction state with
  | nil => simp
  | cons entry state induction =>
      obtain ⟨name, entry⟩ := entry
      by_cases same : name = key
      · rw [List.filter_cons_of_neg (by simp [same]), induction, lookup_cons_eq, same]
        by_cases isKey : other = key
        · rw [if_pos isKey, if_pos isKey]
        · rw [if_neg isKey, if_neg isKey, if_neg isKey]
      · rw [List.filter_cons_of_pos (by simp [same]), lookup_cons_eq, lookup_cons_eq,
          induction]
        by_cases isName : other = name
        · rw [if_pos isName, if_neg (by rw [isName]; exact same), if_pos isName]
        · rw [if_neg isName, if_neg isName]

/-- A database whose patterns are the front of a key and a star. -/
def expiringRedis : Redis where
  State := List (String × Pickled × Nat)
  empty := []
  get := expiringGet
  accepts ex := decide (0 < ex)
  set state now key data ex :=
    if 0 < ex then
      .ok ((key, data, now + 1000 * ex.toNat) :: state.filter (fun entry => entry.1 ≠ key))
    else .error (.base "invalid expire time in 'set' command")
  delete state _ key := state.filter (fun entry => entry.1 ≠ key)
  globs := frontGlob
  keys state now pattern := (state.map Prod.fst).dedup.filter
    (fun key => (expiringGet state now key).isSome && frontGlob pattern key)
  get_empty _ _ := rfl
  pos_of_accepts ex accepted := of_decide_eq_true accepted
  set_rejected state now key data ex rejected := by
    have notPositive : ¬ 0 < ex := of_decide_eq_false rejected
    exact ⟨_, if_neg notPositive⟩
  set_accepted state now key data ex accepted := by
    have positive : 0 < ex := of_decide_eq_true accepted
    refine ⟨_, if_pos positive, ?_⟩
    intro time _ other
    rw [expiringGet, lookup_cons_eq, lookup_filter]
    by_cases same : other = key
    · simp [same]
    · simp [same, expiringGet]
  get_delete state now key time _ other := by
    rw [expiringGet, lookup_filter]
    by_cases same : other = key
    · simp [same]
    · simp [same, expiringGet]
  nodup_keys state now pattern := (List.nodup_dedup _).filter _
  mem_keys state now pattern key := by
    rw [List.mem_filter, List.mem_dedup, Bool.and_eq_true]
    apply and_iff_right_of_imp
    rintro ⟨there, _⟩
    have listed : (state.lookup key).isSome = true := by
      rw [expiringGet] at there
      cases found : state.lookup key with
      | none =>
          rw [found] at there
          cases there
      | some entry => rfl
    obtain ⟨entry, member, isKey⟩ := List.lookup_isSome_iff.mp listed
    rw [eq_of_beq isKey]
    exact List.mem_map_of_mem member
  globs_star front _ key := by
    rw [frontGlob, String.toList_append, List.isPrefixOf_iff_prefix]
    simp

/-- A key with a colon is listed by its last part, and stands for a key of another
category. -/
theorem colon_breaks_listing :
    (⟨"a", 60⟩ : Category).listKeys expiringRedis
        [("cache:a:b:c", (60, .int 1), 60000)] 0 = ["c"] ∧
      ¬ Along AsClaimed World.step (World.start : World expiringRedis)
        [⟨0, ⟨"a", 60⟩, .set "b:c" (.int 1) none⟩, ⟨0, ⟨"a", 60⟩, .list⟩] := by
  refine ⟨by decide, ?_⟩
  rintro ⟨⟨_, represents⟩, _⟩
  have entry := represents 0 (Nat.le_refl 0) ⟨"a:b", 60⟩ "c"
  have stored : expiringRedis.get
      (perform expiringRedis [] 0 ⟨"a", 60⟩ (.set "b:c" (.int 1) none)).2 0 "cache:a:b:c" =
        some (60, .int 1) := rfl
  cases stored.symm.trans entry

end JumpscaleX.Caches
