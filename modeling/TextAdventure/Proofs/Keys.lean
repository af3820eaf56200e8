import Mathlib.Algebra.Order.Field.Rat
import Mathlib.Data.Int.Cast.Lemmas
import TextAdventure.Proofs.Tables
import TextAdventure.Proofs.Words

/-!
# Documents as keys

Scenes are found by their ids and resolvers by the names of their symbols, and both may be any
document that can be a key. Documents are equal by value and not only if they are the same, so the
number one, the same number with a decimal point and the truth value *true* are one key. What a
table makes of such keys is not clear from the start, because an equality that is no identity need
not be symmetric or transitive.

This one is, because it compares what documents are *worth* (`TextAdventure.Document.worth`): of a
number that is its value as a rational number, of a moment the point of time. Two documents of which
one can be a key are equal if and only if they are worth the same
(`TextAdventure.Document.beq_iff_worth_eq`). Wherever equality is of this kind, a table that is
filled entry by entry

* lists each key once, where it first came in (`TextAdventure.Table.keys_ofList`), and
* holds under a key what came in last (`TextAdventure.Table.get?_ofList`).
-/

namespace TextAdventure

/-! ### Texts and nothing -/

namespace Document

theorem text_beq (s : String) (d : Document) : (Document.text s == d) = d.isText s := by
  cases d with
  | text t =>
    have h : (Document.text s == .text t) = (s == t) := rfl
    rw [h, isText_text, Bool.beq_comm]
  | _ => rfl

theorem beq_text (d : Document) (s : String) : (d == Document.text s) = d.isText s := by
  cases d <;> rfl

/-- A text equals nothing but itself. -/
theorem isExact_text (s : String) : Table.IsExact (Document.text s) := by
  intro d
  rw [beq_text, text_beq, isText_iff]
  exact ⟨Iff.rfl, Iff.rfl⟩

/-- The document that holds nothing equals no other. -/
theorem isExact_null : Table.IsExact Document.null := by
  intro d
  cases d with
  | null => exact ⟨iff_of_true rfl rfl, iff_of_true rfl rfl⟩
  | _ =>
    exact ⟨iff_of_false Bool.false_ne_true (by simp), iff_of_false Bool.false_ne_true (by simp)⟩

end Document

/-! ### What numbers are worth -/

namespace Decimal

/-- What a number is worth, however it is written down. -/
inductive Worth where
  | finite (value : ℚ)
  | infinite (negative : Bool)
  | undefined

/-- What an exact value is worth. -/
def Exact.worth : Exact → Worth
  | .finite mantissa exponent => .finite (mantissa * 2 ^ exponent)
  | .infinite negative => .infinite negative
  | .undefined => .undefined

/-- A mantissa that is scaled to a smaller exponent is worth as much. -/
theorem scaled_mul_zpow (mantissa : ℤ) {e e' : ℤ} (h : e ≤ e') :
    (scaled mantissa (e' - e) : ℚ) * 2 ^ e = mantissa * 2 ^ e' := by
  have hscale : ((Nat.pow 2 (e' - e).toNat : ℕ) : ℚ) = 2 ^ (e' - e) := by
    rw [Nat.pow_eq, Nat.cast_pow, Nat.cast_ofNat, ← zpow_natCast, Int.toNat_of_nonneg (by omega)]
  rw [scaled, Int.cast_mul, Int.cast_natCast, hscale, mul_assoc, ← zpow_add₀ two_ne_zero,
    Int.sub_add_cancel]

theorem Exact.same_iff {x y : Exact} : x.same y ↔ x.worth = y.worth := by
  have hpow : ∀ e : ℤ, (2 : ℚ) ^ e ≠ 0 := fun e => zpow_ne_zero e two_ne_zero
  cases x with
  | finite m e =>
    cases y with
    | finite m' e' =>
      rw [same, worth, worth, Worth.finite.injEq]
      split_ifs with h
      · rw [beq_iff_eq, ← scaled_mul_zpow m' h, mul_left_inj' (hpow e), Int.cast_inj]
      · rw [beq_iff_eq, ← scaled_mul_zpow m (by omega : e' ≤ e), mul_left_inj' (hpow e'),
          Int.cast_inj]
    | _ => simp [same, worth]
  | infinite negative =>
    cases y with
    | infinite negative' => simp [same, worth]
    | _ => simp [same, worth]
  | undefined =>
    cases y with
    | undefined => simp [same, worth]
    | _ => simp [same, worth]

end Decimal

/-! ### What timestamps are worth -/

namespace Timestamp

/-- What a timestamp is worth: a day, or a point of time. -/
inductive Worth where
  | day (d : Day)
  /-- A point of time on a clock of which nothing more is known. -/
  | localTime (microseconds : ℤ)
  /-- A point of universal time. -/
  | universalTime (microseconds : ℤ)

/-- What a timestamp is worth. -/
def worth : Timestamp → Worth
  | .day d => .day d
  | .moment m =>
    match m.offset with
    | none => .localTime m.localMicroseconds
    | some o => .universalTime (m.localMicroseconds - o * 60000000)

theorem same_iff {t t' : Timestamp} : t.same t' ↔ t.worth = t'.worth := by
  cases t with
  | day d =>
    cases t' with
    | day d' => simp [same, worth]
    | moment m' => cases hoffset : m'.offset <;> simp [same, worth, hoffset]
  | moment m =>
    cases t' with
    | day d' => cases hoffset : m.offset <;> simp [same, worth, hoffset]
    | moment m' =>
      cases hoffset : m.offset <;> cases hoffset' : m'.offset <;>
        simp [same, Moment.same, worth, hoffset, hoffset']

end Timestamp

/-! ### What documents are worth -/

namespace Document

/-- What a document is worth as a key. -/
inductive Worth where
  | nothing
  | number (worth : Decimal.Worth)
  | text (s : String)
  | time (worth : Timestamp.Worth)
  /-- What cannot be a key. -/
  | many

/-- What a document is worth as a key. -/
def worth : Document → Worth
  | .null => .nothing
  | .bool b => .number (Decimal.Exact.ofInt (if b then 1 else 0)).worth
  | .int n => .number (Decimal.Exact.ofInt n).worth
  | .float x => .number (Decimal.Exact.ofFloat x).worth
  | .text s => .text s
  | .time t => .time t.worth
  | .list _ | .mapping _ => .many

variable {d d' : Document}

/-- A number equals what is worth the same. -/
theorem sameNumber_iff {x : Decimal.Exact} (h : d.number? = some x)
    (hworth : d.worth = .number x.worth) : d.sameNumber d' ↔ d.worth = d'.worth := by
  rw [sameNumber, hworth, h]
  cases d' with
  | bool b => rw [number?, Decimal.Exact.same_iff, worth, Worth.number.injEq]
  | int n => rw [number?, Decimal.Exact.same_iff, worth, Worth.number.injEq]
  | float y => rw [number?, Decimal.Exact.same_iff, worth, Worth.number.injEq]
  | _ => simp [number?, worth]

/-- **Keys are compared by what they are worth.** -/
theorem beq_iff_worth_eq (h : d.canBeKey) : (d == d') = true ↔ d.worth = d'.worth := by
  cases d with
  | null =>
    rw [(isExact_null d').2]
    cases d' <;> simp [worth]
  | bool b => exact sameNumber_iff rfl rfl
  | int n => exact sameNumber_iff rfl rfl
  | float x => exact sameNumber_iff rfl rfl
  | text s =>
    rw [(isExact_text s d').2]
    cases d' <;> simp [worth, eq_comm]
  | time t =>
    cases d' with
    | time t' =>
      rw [worth, worth, Worth.time.injEq, ← Timestamp.same_iff]
      rfl
    | _ => exact iff_of_false Bool.false_ne_true (by simp [worth])
  | list items => exact Bool.noConfusion h
  | mapping entries => exact Bool.noConfusion h

/-- What equals a key can be a key. -/
theorem canBeKey_of_beq (h : d.canBeKey) (hbeq : (d == d') = true) : d'.canBeKey := by
  have hworth := (beq_iff_worth_eq h).mp hbeq
  have hmany : d.worth ≠ .many := by
    cases d with
    | list items => exact Bool.noConfusion h
    | mapping entries => exact Bool.noConfusion h
    | _ => simp [worth]
  cases d' with
  | list items => exact absurd hworth hmany
  | mapping entries => exact absurd hworth hmany
  | _ => rfl

end Document

/-! ### Tables with keys that are compared by what they are worth -/

namespace Table

variable {κ ω α : Type} [BEq κ]

/-- Whether a key equals exactly what is worth the same. -/
def IsComparedBy (worth : κ → ω) (key : κ) : Prop := ∀ k, (key == k) = true ↔ worth key = worth k

variable {worth : κ → ω} {key name : κ} {value : α} {t base more : Table κ α}

theorem IsComparedBy.beq_comm (h : IsComparedBy worth key) (h' : IsComparedBy worth name) :
    (key == name) = (name == key) := by
  rw [Bool.eq_iff_iff, h, h']
  exact eq_comm

/-- Equal keys are equal to the same keys. -/
theorem IsComparedBy.beq_congr (h : IsComparedBy worth key) (h' : IsComparedBy worth name)
    (heq : (key == name) = true) (k : κ) : (key == k) = (name == k) := by
  rw [Bool.eq_iff_iff, h, h', (h name).mp heq]

/-- **What a table holds after a value has been entered.** -/
theorem get?_insert (ht : ∀ k ∈ t.keys, IsComparedBy worth k) (hkey : IsComparedBy worth key) :
    (t.insert key value).get? name = if key == name then some value else t.get? name := by
  induction t with
  | nil => rfl
  | cons e rest ih =>
    obtain ⟨he, hrest⟩ := List.forall_mem_cons.mp ht
    by_cases hfirst : (e.1 == key) = true
    · rw [insert, if_pos hfirst, get?, get?, he.beq_congr hkey hfirst]
      split_ifs <;> rfl
    · rw [insert, if_neg hfirst, get?, get?, ih hrest]
      by_cases hname : (e.1 == name) = true
      · -- the name is found before the new key
        have hother : ¬(key == name) = true := by
          rw [hkey, ← (he name).mp hname, eq_comm, ← he]
          exact hfirst
        rw [if_pos hname, if_pos hname, if_neg hother]
      · rw [if_neg hname, if_neg hname]

/-- Where the keys are distinct, one entry at most is found under a name. -/
theorem isSingle_of_isComparedBy (ht : ∀ k ∈ t.keys, IsComparedBy worth k)
    (hd : Distinct t.keys) (name : κ) : IsSingle name t := by
  refine (List.pairwise_map.mp hd).imp_of_mem fun {e e'} he he' hne hname => ?_
  have hkey := ht e.1 (List.mem_map_of_mem he)
  have hkey' := ht e'.1 (List.mem_map_of_mem he')
  rw [← Bool.not_eq_true, hkey']
  intro hsame
  rw [← Bool.not_eq_true, hkey, hsame, (hkey name).mp hname] at hne
  exact hne rfl

/-- **What a table holds after another one has been entered**: the values of the other one, and its
own where the other one has none. -/
theorem get?_update (hbase : ∀ k ∈ base.keys, IsComparedBy worth k)
    (hmore : ∀ k ∈ more.keys, IsComparedBy worth k) (hd : Distinct more.keys) (name : κ) :
    (base.update more).get? name = (more.get? name).or (base.get? name) := by
  induction more generalizing base with
  | nil => rfl
  | cons e rest ih =>
    have hsingle := isSingle_of_isComparedBy hmore hd name
    obtain ⟨he, hrest⟩ := List.forall_mem_cons.mp hmore
    have hupdate : base.update (e :: rest) = (base.insert e.1 e.2).update rest := rfl
    rw [hupdate, ih (forall_keys_insert hbase he) hrest (List.pairwise_cons.mp hd).2,
      get?_insert hbase he, get?]
    by_cases hname : (e.1 == name) = true
    · rw [if_pos hname, if_pos hname, hsingle.get?_rest hname]
      rfl
    · rw [if_neg hname, if_neg hname]

/-- **A table holds what came in last** under a key. -/
theorem get?_ofList {entries : List (κ × α)} (h : ∀ e ∈ entries, IsComparedBy worth e.1)
    (name : κ) :
    (ofList entries).get? name = (entries.filter (·.1 == name)).getLast?.map Prod.snd := by
  -- the induction takes the entries from behind, where the one that is found stands
  induction entries using List.reverseRecOn with
  | nil => rfl
  | append_singleton entries e ih =>
    obtain ⟨hbefore, hlast⟩ := List.forall_mem_append.mp h
    have he : IsComparedBy worth e.1 := hlast e (List.mem_singleton_self e)
    have hkeys : ∀ k ∈ keys (ofList entries), IsComparedBy worth k := by
      intro k hk
      obtain ⟨e', he', rfl⟩ := List.mem_map.mp ((mem_keys_update hk).resolve_left List.not_mem_nil)
      exact hbefore e' he'
    have hconcat : ofList (entries ++ [e]) = (ofList entries).insert e.1 e.2 := update_concat e
    rw [hconcat, get?_insert hkeys he, ih hbefore, List.filter_append, List.filter_singleton,
      List.getLast?_append]
    cases e.1 == name <;> simp

/-- Entering a table goes through the keys as leaving out repetitions does, with those that are
there already in front. -/
theorem keys_update (hbase : ∀ k ∈ base.keys, IsComparedBy worth k)
    (hmore : ∀ e ∈ more, IsComparedBy worth e.1) :
    (base.update more).keys = List.eraseDupsBy.loop (· == ·) more.keys base.keys.reverse := by
  induction more generalizing base with
  | nil => exact (List.reverse_reverse _).symm
  | cons e more ih =>
    obtain ⟨he, hrest⟩ := List.forall_mem_cons.mp hmore
    have hkeys : ∀ k ∈ (base.insert e.1 e.2).keys, IsComparedBy worth k :=
      forall_keys_insert hbase he
    have hany : (base.keys.reverse.any fun k => e.1 == k) = base.has e.1 := by
      rw [List.any_reverse, has_eq_any, Bool.eq_iff_iff, List.any_eq_true, List.any_eq_true]
      exact exists_congr fun k => and_congr_right fun hk => by rw [he.beq_comm (hbase k hk)]
    have hupdate : base.update (e :: more) = (base.insert e.1 e.2).update more := rfl
    have hcons : keys (e :: more) = e.1 :: keys more := rfl
    rw [hupdate, ih hkeys hrest, hcons, List.eraseDupsBy.loop, hany]
    cases hhas : base.has e.1 with
    | true => rw [keys_insert_of_has hhas]
    | false => rw [keys_insert_of_not_has hhas, List.reverse_concat]

/-- **A table lists each key once**, in the order in which they first came in. -/
theorem keys_ofList {entries : List (κ × α)} (h : ∀ e ∈ entries, IsComparedBy worth e.1) :
    (ofList entries).keys = (keys entries).eraseDups :=
  keys_update (fun _ hk => absurd hk List.not_mem_nil) h

end Table

/-- Documents that can be keys are compared by what they are worth. -/
theorem Document.isComparedBy_worth {d : Document} (h : d.canBeKey) :
    Table.IsComparedBy worth d := fun _ => beq_iff_worth_eq h

end TextAdventure
