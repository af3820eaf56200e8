import Mathlib.Data.List.Basic
import Mathlib.Data.List.Induction
import TextAdventure.Table

/-!
# Tables entered over tables

Settings are read over defaults: the table of a file is entered, entry by entry, over a table that
is there already. This file says what comes of it in one equation, `TextAdventure.Table.update_eq`.
The names of the first table stay in their places, each with its value in the second table if it has
one there, and the other entries of the second stand behind them in order. The steps on the way are
lemmas about entering one value.

Two things are asked for. The keys of each table are *distinct* (`TextAdventure.Table.Distinct`),
which entering a value preserves. And the keys of the first are *exact*
(`TextAdventure.Table.IsExact`): nothing but the key itself is equal to it. Equality by value is
coarser than that in general, but a text equals nothing but itself.
-/

namespace TextAdventure.Table

variable {κ α : Type} [BEq κ]

/-- Whether no key of a list equals an earlier one. -/
def Distinct (keys : List κ) : Prop := keys.Pairwise fun k k' => (k == k') = false

/-- **An exact key** equals itself and nothing else, from whichever side it is asked. -/
def IsExact (key : κ) : Prop :=
  ∀ k, ((k == key) = true ↔ k = key) ∧ ((key == k) = true ↔ k = key)

variable {key : κ} {value : α} {t more base : Table κ α}

theorem IsExact.beq_self (h : IsExact key) : (key == key) = true := (h key).1.mpr rfl

theorem IsExact.beq_of_ne (h : IsExact key) {k : κ} (hk : k ≠ key) : (key == k) = false := by
  rw [← Bool.not_eq_true, (h k).2]
  exact hk

/-- Where equality is that of the language, all keys are exact. -/
theorem isExact_of_lawfulBEq {κ : Type} [BEq κ] [LawfulBEq κ] (key : κ) : IsExact key :=
  fun _ => ⟨beq_iff_eq, beq_iff_eq.trans eq_comm⟩

/-! ### Looking up -/

theorem has_cons {e : κ × α} {rest : Table κ α} :
    has key (e :: rest) = (e.1 == key || has key rest) := by
  rw [has, get?, has]
  cases e.1 == key <;> rfl

/-- Whether a table has a key is a question about its keys. -/
theorem has_eq_any : t.has key = t.keys.any (· == key) := by
  induction t with
  | nil => rfl
  | cons e rest ih => rw [has_cons, ih, keys, keys, List.map_cons, List.any_cons]

theorem has_eq_false_iff : t.has key = false ↔ ∀ e ∈ t, (e.1 == key) = false := by
  rw [has_eq_any, List.any_eq_false, keys, List.forall_mem_map]
  simp

/-- A table has an exact key if and only if this is one of its keys. -/
theorem has_iff_mem_keys (h : IsExact key) : t.has key ↔ key ∈ t.keys := by
  rw [has_eq_any, List.any_eq_true]
  constructor
  · rintro ⟨k, hk, hbeq⟩
    exact (h k).1.mp hbeq ▸ hk
  · exact fun hkey => ⟨key, hkey, h.beq_self⟩

theorem get?_eq_none_iff : t.get? key = none ↔ t.has key = false := by
  rw [has, Option.isSome_eq_false_iff, Option.isNone_iff_eq_none]

theorem mem_of_get? (h : t.get? key = some value) : ∃ k, (k, value) ∈ t := by
  induction t with
  | nil => simp [get?] at h
  | cons first rest ih =>
    rw [get?] at h
    split at h
    · obtain rfl := Option.some.inj h
      exact ⟨_, List.mem_cons_self ..⟩
    · obtain ⟨k, hk⟩ := ih h
      exact ⟨k, List.mem_cons_of_mem _ hk⟩

theorem get?_append : get? key (t ++ more) = (t.get? key).or (more.get? key) := by
  induction t with
  | nil => rfl
  | cons e rest ih =>
    rw [List.cons_append, get?, get?]
    split_ifs
    · rfl
    · exact ih

theorem distinct_of_sublist {t' : Table κ α} (h : Distinct t.keys) (hsub : t'.Sublist t) :
    Distinct t'.keys := h.sublist (hsub.map Prod.fst)

/-- Behind distinct keys, a key that comes later is not found. -/
theorem has_eq_false_of_distinct {e : κ × α} (h : Distinct (keys (t ++ [e]))) :
    t.has e.1 = false := by
  rw [Distinct, keys, List.map_append, List.pairwise_append] at h
  rw [has_eq_any, List.any_eq_false]
  intro k hk
  simpa using h.2.2 k hk e.1 (by simp)

/-- Whether at most one entry of a table is found under a name. -/
def IsSingle (name : κ) (t : Table κ α) : Prop :=
  t.Pairwise fun e e' => (e.1 == name) = true → (e'.1 == name) = false

theorem IsExact.isSingle {name : κ} (hexact : IsExact name) (hd : Distinct t.keys) :
    IsSingle name t := by
  refine (List.pairwise_map.mp hd).imp fun {e e'} hne he => ?_
  rw [(hexact e.1).1.mp he] at hne
  rw [← Bool.not_eq_true, (hexact e'.1).1, ← (hexact e'.1).2, hne]
  exact Bool.false_ne_true

theorem IsSingle.get?_rest {name : κ} {e : κ × α} (h : IsSingle name (e :: t))
    (he : (e.1 == name) = true) : t.get? name = none := by
  rw [get?_eq_none_iff, has_eq_false_iff]
  exact fun e' he' => (List.pairwise_cons.mp h).1 e' he' he

/-- In a table that is left out in part, a name under which there is one entry at most has the value
that it had, unless its entry was left out. -/
theorem IsSingle.get?_filter {name : κ} (h : IsSingle name t) {keep : κ × α → Bool}
    {keepValue : α → Bool} (hkeep : ∀ e ∈ t, (e.1 == name) = true → keep e = keepValue e.2) :
    get? name (t.filter keep) = (t.get? name).filter keepValue := by
  induction t with
  | nil => rfl
  | cons e rest ih =>
    have hrest : IsSingle name rest := (List.pairwise_cons.mp h).2
    have htail := ih hrest fun e' he' => hkeep e' (List.mem_cons_of_mem _ he')
    rw [List.filter_cons]
    by_cases he : (e.1 == name) = true
    · -- behind the entry, the name is not found again
      rw [h.get?_rest he, Option.filter_none] at htail
      rw [get?, if_pos he, Option.filter_some, hkeep e (List.mem_cons_self ..) he]
      split_ifs
      · rw [get?, if_pos he]
      · exact htail
    · rw [get?, if_neg he, ← htail]
      split_ifs
      · rw [get?, if_neg he]
      · rfl

/-- In a table that is left out in part, a name that is exact has the value that it had, unless its
entry was left out. -/
theorem get?_filter {name : κ} (hexact : IsExact name) (hd : Distinct t.keys)
    (keep : κ × α → Bool) :
    get? name (t.filter keep) = (t.get? name).filter fun a => keep (name, a) :=
  (hexact.isSingle hd).get?_filter fun e _ he => by rw [← (hexact e.1).1.mp he]

/-! ### Entering one value -/

theorem mem_insert {e : κ × α} (h : e ∈ t.insert key value) : e ∈ t ∨ e.2 = value := by
  induction t with
  | nil =>
    rw [insert, List.mem_singleton] at h
    exact Or.inr (h ▸ rfl)
  | cons first rest ih =>
    rw [insert] at h
    split at h
    · rcases List.mem_cons.mp h with rfl | h
      · exact Or.inr rfl
      · exact Or.inl (List.mem_cons_of_mem _ h)
    · rcases List.mem_cons.mp h with rfl | h
      · exact Or.inl (List.mem_cons_self ..)
      · rcases ih h with h | h
        · exact Or.inl (List.mem_cons_of_mem _ h)
        · exact Or.inr h

/-- The keys of a table in which something has been entered are the former ones and the new one. -/
theorem key_of_mem_insert {e : κ × α} (h : e ∈ t.insert key value) :
    (∃ a, (e.1, a) ∈ t) ∨ e.1 = key := by
  induction t with
  | nil =>
    rw [insert, List.mem_singleton] at h
    exact Or.inr (h ▸ rfl)
  | cons first rest ih =>
    rw [insert] at h
    split at h
    · rcases List.mem_cons.mp h with rfl | h
      · exact Or.inl ⟨_, List.mem_cons_self ..⟩
      · exact Or.inl ⟨_, List.mem_cons_of_mem _ h⟩
    · rcases List.mem_cons.mp h with rfl | h
      · exact Or.inl ⟨_, List.mem_cons_self ..⟩
      · rcases ih h with ⟨a, h⟩ | h
        · exact Or.inl ⟨a, List.mem_cons_of_mem _ h⟩
        · exact Or.inr h

/-- What holds of all keys and of a new one holds of all keys after a value has been entered under
it. -/
theorem forall_keys_insert {good : κ → Prop} (ht : ∀ k ∈ t.keys, good k) (hkey : good key) :
    ∀ k ∈ (t.insert key value).keys, good k := by
  intro k hk
  obtain ⟨e, he, rfl⟩ := List.mem_map.mp hk
  rcases key_of_mem_insert he with ⟨a, hbefore⟩ | hnew
  · exact ht e.1 (List.mem_map.mpr ⟨_, hbefore, rfl⟩)
  · exact hnew.symm ▸ hkey

theorem insert_append_of_has (h : t.has key = true) :
    insert key value (t ++ more) = t.insert key value ++ more := by
  induction t with
  | nil => exact Bool.noConfusion h
  | cons e rest ih =>
    rw [has_cons] at h
    rw [List.cons_append, insert, insert]
    split_ifs with hkey
    · rfl
    · rw [ih (by simpa [hkey] using h), List.cons_append]

theorem insert_append_of_not_has (h : t.has key = false) :
    insert key value (t ++ more) = t ++ more.insert key value := by
  induction t with
  | nil => rfl
  | cons e rest ih =>
    obtain ⟨hkey, hrest⟩ := List.forall_mem_cons.mp (has_eq_false_iff.mp h)
    rw [List.cons_append, insert, hkey, if_neg Bool.false_ne_true,
      ih (has_eq_false_iff.mpr hrest), List.cons_append]

/-- A new key comes in at the end. -/
theorem insert_of_not_has (h : t.has key = false) : t.insert key value = t ++ [(key, value)] := by
  have happend : insert key value (t ++ []) = t ++ insert key value [] := insert_append_of_not_has h
  rwa [List.append_nil, insert] at happend

theorem keys_insert_of_has (h : t.has key = true) : (t.insert key value).keys = t.keys := by
  induction t with
  | nil => exact Bool.noConfusion h
  | cons e rest ih =>
    rw [has_cons] at h
    rw [insert]
    split_ifs with hkey
    · rfl
    · exact congrArg (e.1 :: ·) (ih (by simpa [hkey] using h))

theorem keys_insert_of_not_has (h : t.has key = false) :
    (t.insert key value).keys = t.keys ++ [key] := by
  rw [insert_of_not_has h, keys, keys, List.map_append]
  rfl

/-- After a value has been entered under some key, the exact keys that are there are the former ones
and this one. -/
theorem has_insert {name : κ} (h : IsExact name) :
    (t.insert key value).has name = (t.has name || key == name) := by
  cases hhas : t.has key with
  | true =>
    rw [has_eq_any, keys_insert_of_has hhas, ← has_eq_any]
    by_cases hname : (key == name) = true
    · rw [(h key).1.mp hname] at hhas
      rw [hhas, Bool.true_or]
    · rw [eq_false_of_ne_true hname, Bool.or_false]
  | false =>
    rw [has_eq_any, keys_insert_of_not_has hhas, List.any_append, ← has_eq_any, List.any_cons,
      List.any_nil, Bool.or_false]

/-- Entering a value keeps the keys distinct. -/
theorem distinct_keys_insert (h : Distinct t.keys) : Distinct (t.insert key value).keys := by
  cases hhas : t.has key with
  | true => rwa [keys_insert_of_has hhas]
  | false =>
    rw [keys_insert_of_not_has hhas, Distinct, List.pairwise_append]
    refine ⟨h, List.pairwise_singleton _ _, fun k hk k' hk' => ?_⟩
    rw [has_eq_any, List.any_eq_false] at hhas
    rw [List.mem_singleton.mp hk']
    simpa using hhas k hk

/-- The keys that were there stay in front. -/
theorem keys_prefix_insert : t.keys <+: (t.insert key value).keys := by
  cases hhas : t.has key with
  | true => exact (keys_insert_of_has hhas).symm ▸ List.prefix_rfl
  | false =>
    rw [keys_insert_of_not_has hhas]
    exact List.prefix_append _ _

theorem insert_insert (h : IsExact key) (value' : α) :
    (t.insert key value).insert key value' = t.insert key value' := by
  induction t with
  | nil => simp [insert, h.beq_self]
  | cons e rest ih =>
    by_cases hkey : (e.1 == key) = true
    · simp [insert, hkey]
    · simp [insert, hkey, ih]

theorem get?_insert_self (h : IsExact key) : (t.insert key value).get? key = some value := by
  induction t with
  | nil => simp [insert, get?, h.beq_self]
  | cons e rest ih =>
    by_cases hkey : (e.1 == key) = true
    · simp [insert, get?, hkey]
    · simp [insert, get?, hkey, ih]

theorem get?_insert_of_ne (h : IsExact key) {name : κ} (hname : name ≠ key) :
    (t.insert key value).get? name = t.get? name := by
  induction t with
  | nil => simp [insert, get?, h.beq_of_ne hname]
  | cons e rest ih =>
    obtain ⟨k, a⟩ := e
    by_cases hkey : (k == key) = true
    · obtain rfl := (h k).1.mp hkey
      simp [insert, get?, hkey, h.beq_of_ne hname]
    · simp [insert, get?, hkey, ih]

/-- Entering a value under a key that is left out changes nothing in what is left. -/
theorem filter_insert (h : IsExact key) {keep : κ × α → Bool} (hkeep : ∀ a, keep (key, a) = false) :
    (t.insert key value).filter keep = t.filter keep := by
  induction t with
  | nil => simp [insert, hkeep]
  | cons e rest ih =>
    obtain ⟨k, a⟩ := e
    by_cases hkey : (k == key) = true
    · obtain rfl := (h k).1.mp hkey
      simp [insert, hkey, hkeep]
    · simp [insert, hkey, List.filter_cons, ih]

/-- Where the keys are distinct, entering a value under a key that is there replaces its value
only. -/
theorem insert_eq_map (hexact : IsExact key) (hd : Distinct t.keys) (h : t.has key = true) :
    t.insert key value = t.map fun e => (e.1, if e.1 == key then value else e.2) := by
  induction t with
  | nil => exact Bool.noConfusion h
  | cons e rest ih =>
    obtain ⟨k, a⟩ := e
    obtain ⟨hfirst, hrest⟩ := List.pairwise_cons.mp hd
    rw [has_cons] at h
    rw [insert, List.map_cons]
    by_cases hkey : (k == key) = true
    · obtain rfl := (hexact k).1.mp hkey
      have hsame : ∀ e ∈ rest, (e.1, if e.1 == k then value else e.2) = e := by
        intro e he
        have hbeq : (e.1 == k) = false := by
          rw [← Bool.not_eq_true, (hexact e.1).1, ← (hexact e.1).2,
            hfirst e.1 (List.mem_map_of_mem he)]
          exact Bool.false_ne_true
        rw [hbeq]
        rfl
      rw [if_pos hkey, if_pos hkey, List.map_congr_left hsame, List.map_id']
    · rw [if_neg hkey, if_neg hkey, ih hrest (by simpa [hkey] using h)]

/-! ### Entering a table -/

omit [BEq κ] in
/-- Other values under the same keys. -/
theorem keys_map (f : κ × α → α) (t : Table κ α) : keys (t.map fun e => (e.1, f e)) = t.keys := by
  rw [keys, List.map_map]
  rfl

theorem has_map (f : κ × α → α) (t : Table κ α) :
    has key (t.map fun e => (e.1, f e)) = t.has key := by
  rw [has_eq_any, keys_map, has_eq_any]

theorem update_concat (e : κ × α) :
    base.update (more ++ [e]) = (base.update more).insert e.1 e.2 := by
  rw [update, List.foldl_append]
  rfl

/-- Entering a table keeps the keys distinct. -/
theorem distinct_keys_update (h : Distinct base.keys) (more : Table κ α) :
    Distinct (base.update more).keys := by
  induction more generalizing base with
  | nil => exact h
  | cons e rest ih => exact ih (distinct_keys_insert h)

/-- After a table has been entered, the exact keys that are there are those of both tables. -/
theorem has_update {name : κ} (h : IsExact name) (base more : Table κ α) :
    (base.update more).has name = (base.has name || more.has name) := by
  induction more generalizing base with
  | nil => exact (Bool.or_false _).symm
  | cons e rest ih =>
    have hupdate : base.update (e :: rest) = (base.insert e.1 e.2).update rest := rfl
    rw [hupdate, ih, has_insert h, has_cons, Bool.or_assoc]

theorem keys_prefix_update (base more : Table κ α) : base.keys <+: (base.update more).keys := by
  induction more generalizing base with
  | nil => exact List.prefix_rfl
  | cons e rest ih => exact keys_prefix_insert.trans (ih (base.insert e.1 e.2))

/-- The values in the end are values of one of the two tables. -/
theorem mem_update {e : κ × α} (h : e ∈ base.update more) : e ∈ base ∨ ∃ e' ∈ more, e.2 = e'.2 := by
  induction more generalizing base with
  | nil => exact Or.inl h
  | cons first rest ih =>
    rcases ih h with h | ⟨e', he', hvalue⟩
    · rcases mem_insert h with h | hvalue
      · exact Or.inl h
      · exact Or.inr ⟨first, List.mem_cons_self .., hvalue⟩
    · exact Or.inr ⟨e', List.mem_cons_of_mem _ he', hvalue⟩

/-- The keys of a table that has been entered over another one are keys of one of the two. -/
theorem mem_keys_update {k : κ} (h : k ∈ (base.update more).keys) :
    k ∈ base.keys ∨ k ∈ more.keys := by
  induction more generalizing base with
  | nil => exact Or.inl h
  | cons first rest ih =>
    rcases ih h with hkey | hkey
    · obtain ⟨e, he, rfl⟩ := List.mem_map.mp hkey
      rcases key_of_mem_insert he with ⟨a, hbase⟩ | hfirst
      · exact Or.inl (List.mem_map.mpr ⟨_, hbase, rfl⟩)
      · exact Or.inr (hfirst ▸ List.mem_cons_self ..)
    · exact Or.inr (List.mem_cons_of_mem _ hkey)

/-- **What entering a table over another one comes to.** -/
theorem update_eq (hexact : ∀ k ∈ base.keys, IsExact k) (hbase : Distinct base.keys)
    (hmore : Distinct more.keys) :
    base.update more =
      base.map (fun e => (e.1, (more.get? e.1).getD e.2)) ++
        more.filter fun e => !base.has e.1 := by
  induction more using List.reverseRecOn with
  | nil => simp [update, get?]
  | append_singleton more e ih =>
    obtain ⟨k, a⟩ := e
    have hfresh : has k more = false := has_eq_false_of_distinct hmore
    have hnone : get? k more = none := get?_eq_none_iff.mpr hfresh
    rw [update_concat, ih (distinct_of_sublist hmore (List.sublist_append_left _ _)),
      List.filter_append, List.filter_singleton]
    cases hk : has k base with
    | true =>
      -- the value is replaced in its place
      have hkexact : IsExact k := by
        rw [has_eq_any, List.any_eq_true] at hk
        obtain ⟨k', hk', hbeq⟩ := hk
        rw [(hexact k' hk' k).2.mp hbeq]
        exact hexact k' hk'
      rw [insert_append_of_has (by rwa [has_map]), insert_eq_map hkexact (by rwa [keys_map])
        (by rwa [has_map]), List.map_map]
      simp only [Bool.not_true, Bool.cond_false, List.append_nil, List.append_cancel_right_eq]
      refine List.map_congr_left fun e _ => ?_
      rw [Function.comp, get?_append, get?, get?, Prod.mk.injEq]
      refine ⟨rfl, ?_⟩
      by_cases he : e.1 = k
      · rw [he, hkexact.beq_self, hnone]
        rfl
      · have hbeq : (e.1 == k) = false := by
          rw [← Bool.not_eq_true, (hkexact e.1).1]
          exact he
        rw [hbeq, hkexact.beq_of_ne he, if_neg Bool.false_ne_true, if_neg Bool.false_ne_true,
          Option.or_none]
    | false =>
      -- the entry comes in at the end
      have hrest : has k (more.filter fun e => !has e.1 base) = false := by
        rw [has_eq_false_iff] at hfresh ⊢
        exact fun e he => hfresh e (List.mem_of_mem_filter he)
      rw [insert_append_of_not_has (by rwa [has_map]), insert_of_not_has hrest]
      simp only [Bool.not_false, Bool.cond_true, ← List.append_assoc,
        List.append_cancel_right_eq]
      refine List.map_congr_left fun e he => ?_
      have hbeq : (k == e.1) = false := by
        have hmem : e.1 ∈ base.keys := List.mem_map_of_mem he
        rw [← Bool.not_eq_true, (hexact e.1 hmem k).1, ← (hexact e.1 hmem k).2,
          has_eq_false_iff.mp hk e he]
        exact Bool.false_ne_true
      rw [get?_append, get?, get?, hbeq, if_neg Bool.false_ne_true, Option.or_none]

theorem update_nil (h : Distinct t.keys) : update [] t = t := by
  have hexact : ∀ k ∈ keys ([] : Table κ α), IsExact k := fun k hk => absurd hk List.not_mem_nil
  have hnil : Distinct (keys ([] : Table κ α)) := List.Pairwise.nil
  rw [update_eq hexact hnil h, List.map_nil, List.nil_append, List.filter_eq_self]
  exact fun _ _ => rfl

/-- The first entry stays as it is if its key does not come in again. -/
theorem update_cons {e : κ × α} (h : ∀ e' ∈ more, (e.1 == e'.1) = false) :
    update (e :: base) more = e :: base.update more := by
  induction more generalizing base with
  | nil => rfl
  | cons first rest ih =>
    obtain ⟨hfirst, hrest⟩ := List.forall_mem_cons.mp h
    have hinsert : insert first.1 first.2 (e :: base) = e :: base.insert first.1 first.2 := by
      rw [insert, hfirst, if_neg Bool.false_ne_true]
    rw [update, List.foldl_cons, hinsert]
    exact ih hrest

/-- Entering a table with all the keys of another one in front leaves nothing of the other. -/
theorem update_of_keys_prefix (hexact : ∀ k ∈ base.keys, IsExact k) (hpre : base.keys <+: t.keys)
    (hd : Distinct t.keys) : base.update t = t := by
  induction base generalizing t with
  | nil => exact update_nil hd
  | cons e base ih =>
    obtain ⟨he, hbase⟩ := List.forall_mem_cons.mp hexact
    cases t with
    | nil => exact absurd hpre.length_le (by simp [keys])
    | cons e' t =>
      obtain ⟨hkey, hrest⟩ := List.cons_prefix_cons.mp hpre
      obtain ⟨hfirst, hdrest⟩ := List.pairwise_cons.mp hd
      have hinsert : insert e'.1 e'.2 (e :: base) = e' :: base := by
        rw [insert, ← hkey, if_pos he.beq_self, hkey]
      have hnew : ∀ e'' ∈ t, (e'.1 == e''.1) = false :=
        fun e'' he'' => hfirst e''.1 (List.mem_map_of_mem he'')
      have hupdate : update (e :: base) (e' :: t) = update (e' :: base) t := by
        rw [update, List.foldl_cons, hinsert, update]
      rw [hupdate, update_cons hnew, ih hbase hrest hdrest]

end TextAdventure.Table
