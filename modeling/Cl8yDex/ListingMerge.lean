import Cl8yDex.HybridListing
import Mathlib.Algebra.BigOperators.Group.List.Basic
import Mathlib.Algebra.Order.BigOperators.Group.List

/-!
# What the merged listing shows

Levels are sorted by their numeric price and summed by its text, and the last listed level is not
summed at all. The listing is the aggregated book exactly when neither makes a difference.
-/

namespace Cl8yDex.Listing

section Texts

variable {n : ℕ}

theorem digitsValue_toDigits (hn : n ≤ u128Max) : digitsValue (Nat.toDigits 10 n) = some n := by
  have hne : Nat.toDigits 10 n ≠ [] := Nat.toDigits_ne_nil
  have hdigits : (Nat.toDigits 10 n).all Char.isDigit := by
    rw [List.all_eq_true]
    intro c hc
    exact Nat.isDigit_of_mem_toDigits (by decide) (by decide) hc
  unfold digitsValue
  rw [Nat.ofDigitChars_ten_toDigits, if_pos ⟨hne, hdigits, hn⟩]

theorem digitsValue_le {ds : List Char} (h : digitsValue ds = some n) : n ≤ u128Max := by
  unfold digitsValue at h
  obtain ⟨⟨-, -, hle⟩, h⟩ := Option.ite_none_right_eq_some.1 h
  exact Option.some.inj h ▸ hle

/-- A printed quantity reads as itself. -/
theorem parseU128_toString (hn : n ≤ u128Max) : parseU128 (toString n) = some n := by
  have hlist : (toString n).toList = Nat.toDigits 10 n := by simp [toString, Nat.toList_repr]
  unfold parseU128
  rw [hlist]
  split
  · rename_i ds hds
    have hplus : Char.isDigit '+' = true :=
      Nat.isDigit_of_mem_toDigits (b := 10) (n := n) (by decide) (by decide)
        (by rw [hds]; exact List.mem_cons_self)
    exact absurd hplus (by decide)
  · exact digitsValue_toDigits hn

end Texts

section Steps

variable {depth : ℕ} {done merged rest tail : List BookLevel} {last level : BookLevel}

theorem mergeLevels_absorb (h : last.price = level.price) :
    mergeLevels depth (done ++ [last]) (level :: rest) =
      mergeLevels depth (done ++ [absorb last level]) rest := by
  rw [mergeLevels, List.getLast?_concat, List.dropLast_concat]
  exact if_pos h

theorem mergeLevels_push (h : ∀ last ∈ merged.getLast?, last.price ≠ level.price) :
    mergeLevels depth merged (level :: rest) =
      if depth ≤ merged.length + 1 then merged ++ [level]
      else mergeLevels depth (merged ++ [level]) rest := by
  rw [mergeLevels]
  cases hlast : merged.getLast? with
  | none => rfl
  | some last => exact if_neg (h last hlast)

theorem mergeLevels_concat_push (h : last.price ≠ level.price) :
    mergeLevels depth (done ++ [last]) (level :: rest) =
      if depth ≤ done.length + 2 then done ++ [last] ++ [level]
      else mergeLevels depth (done ++ [last] ++ [level]) rest := by
  rw [mergeLevels_push]
  · rw [List.length_append, List.length_singleton]
  · intro other hother
    rw [List.getLast?_concat] at hother
    cases hother
    exact h

/-- What is merged stays, up to the quantity of its last level. -/
theorem mergeLevels_concat_eq (done : List BookLevel) (last : BookLevel) : ∃ quantity more,
    mergeLevels depth (done ++ [last]) rest = done ++ ⟨last.price, quantity⟩ :: more := by
  induction rest generalizing done last with
  | nil => exact ⟨last.quantity, [], by rw [mergeLevels]⟩
  | cons level rest ih =>
      by_cases h : last.price = level.price
      · rw [mergeLevels_absorb h]
        exact ih done (absorb last level)
      · rw [mergeLevels_concat_push h]
        split_ifs
        · exact ⟨last.quantity, [level], by simp⟩
        · obtain ⟨quantity, more, heq⟩ := ih (done ++ [last]) level
          exact ⟨last.quantity, ⟨level.price, quantity⟩ :: more, by rw [heq]; simp⟩

/-- Levels with the text of the last price are summed into it. -/
theorem mergeLevels_sum (depth : ℕ) (done : List BookLevel) {a : ℕ}
    (hlast : parseU128 last.quantity = some a)
    (htext : ∀ b ∈ tail, b.price = last.price)
    (hparse : ∀ b ∈ tail, ∃ q, parseU128 b.quantity = some q)
    (hfits : a + (tail.map levelQuantity).sum ≤ u128Max) :
    ∃ last', last'.price = last.price ∧
      parseU128 last'.quantity = some (a + (tail.map levelQuantity).sum) ∧
      ∀ rest, mergeLevels depth (done ++ [last]) (tail ++ rest) =
        mergeLevels depth (done ++ [last']) rest := by
  induction tail generalizing last a with
  | nil => exact ⟨last, rfl, hlast, fun rest => rfl⟩
  | cons b tail ih =>
      obtain ⟨q, hq⟩ := hparse b List.mem_cons_self
      have hb : levelQuantity b = q := by simp [levelQuantity, hq]
      have ha : levelQuantity last = a := by simp [levelQuantity, hlast]
      rw [List.map_cons, List.sum_cons, hb, ← Nat.add_assoc] at hfits ⊢
      have hsum : parseU128 (absorb last b).quantity = some (a + q) := by
        have hle : a + q ≤ u128Max := (Nat.le_add_right _ _).trans hfits
        unfold absorb saturatingAdd
        rw [ha, hb, min_eq_left hle]
        exact parseU128_toString hle
      obtain ⟨last', hprice, hquantity, hrest⟩ := ih hsum
        (fun c hc => htext c (List.mem_cons_of_mem b hc))
        (fun c hc => hparse c (List.mem_cons_of_mem b hc)) hfits
      refine ⟨last', hprice, hquantity, fun rest => ?_⟩
      rw [List.cons_append, mergeLevels_absorb (htext b List.mem_cons_self).symm]
      exact hrest rest

/-- Another text is listed on its own, next to the last level. -/
theorem mergeLevels_split (depth : ℕ) (done rest : List BookLevel)
    (htail : ∃ b ∈ tail, b.price ≠ last.price) :
    ∃ quantity, ∃ b ∈ tail, ∃ quantity' more,
      mergeLevels depth (done ++ [last]) (tail ++ rest) =
        done ++ ⟨last.price, quantity⟩ :: ⟨b.price, quantity'⟩ :: more := by
  induction tail generalizing last with
  | nil =>
      obtain ⟨b, hb, _⟩ := htail
      cases hb
  | cons c tail ih =>
      rw [List.cons_append]
      by_cases hc : last.price = c.price
      · have hlater : ∃ b ∈ tail, b.price ≠ (absorb last c).price := by
          obtain ⟨b, hb, hne⟩ := htail
          rcases List.mem_cons.1 hb with rfl | hb
          · exact absurd hc.symm hne
          · exact ⟨b, hb, hne⟩
        obtain ⟨quantity, b, hb, quantity', more, heq⟩ := ih hlater
        rw [mergeLevels_absorb hc, heq]
        exact ⟨quantity, b, List.mem_cons_of_mem c hb, quantity', more, rfl⟩
      · rw [mergeLevels_concat_push hc]
        split_ifs
        · exact ⟨last.quantity, c, List.mem_cons_self, c.quantity, [], by simp⟩
        · obtain ⟨quantity, more, heq⟩ :=
            mergeLevels_concat_eq (done ++ [last]) c
          exact ⟨last.quantity, c, List.mem_cons_self, quantity, more, by rw [heq]; simp⟩

end Steps

section Book

variable (big : BigDecimals) (levels : List BookLevel)

/-- The distinct prices of the levels, the best first. -/
def bookPrices (bids : Bool) : List ℚ :=
  StableGroups.keys (bookOrder bids) (levelPrice big) levels

def levelsAt (p : ℚ) : List BookLevel := StableGroups.group (levelPrice big) levels p

def depthAt (p : ℚ) : ℕ := ((levelsAt big levels p).map levelQuantity).sum

/-- Every price and quantity can be read, and no price holds more than a machine integer. -/
structure Readable : Prop where
  price : ∀ l ∈ levels, ∃ p, big.parse l.price = some p
  quantity : ∀ l ∈ levels, ∃ q, parseU128 l.quantity = some q
  fits : ∀ p, depthAt big levels p ≤ u128Max

def readLevel (l : BookLevel) : Option ℚ × Option ℕ := (big.parse l.price, parseU128 l.quantity)

/-- The first `n` prices with all that rests at them. -/
def aggregated (n : ℕ) (prices : List ℚ) : List (Option ℚ × Option ℕ) :=
  (prices.take n).map fun p => (some p, some (depthAt big levels p))

/-- The levels at a price have one text for it. -/
def OneText (p : ℚ) : Prop :=
  ∀ a ∈ levelsAt big levels p, ∀ b ∈ levelsAt big levels p, a.price = b.price

/-- Nothing rests at a price behind its first level. -/
def FirstOnly (p : ℚ) : Prop := ∀ a ∈ (levelsAt big levels p).tail, levelQuantity a = 0

/-- One text for each price before the last listed one, which is held by its first level. -/
def Summable (n : ℕ) (prices : List ℚ) : Prop :=
  (∀ p ∈ prices.take (n - 1), OneText big levels p) ∧
    ∀ p ∈ prices[n - 1]?, FirstOnly big levels p

instance (p : ℚ) : Decidable (OneText big levels p) :=
  inferInstanceAs (Decidable (∀ a ∈ levelsAt big levels p, ∀ b ∈ levelsAt big levels p,
    a.price = b.price))

instance (p : ℚ) : Decidable (FirstOnly big levels p) :=
  inferInstanceAs (Decidable (∀ a ∈ (levelsAt big levels p).tail, levelQuantity a = 0))

instance (n : ℕ) (prices : List ℚ) : Decidable (Summable big levels n prices) :=
  inferInstanceAs (Decidable ((∀ p ∈ prices.take (n - 1), OneText big levels p) ∧
    ∀ p ∈ prices[n - 1]?, FirstOnly big levels p))

variable {big levels} {p : ℚ} {bids : Bool} {n : ℕ} {prices : List ℚ} {l : BookLevel}

theorem Readable.parse_eq (h : Readable big levels) (hl : l ∈ levelsAt big levels p) :
    big.parse l.price = some p := by
  obtain ⟨hmem, hprice⟩ := StableGroups.mem_group.1 hl
  obtain ⟨q, hq⟩ := h.price l hmem
  have hkey : levelPrice big l = q := by simp [levelPrice, parseLevelPrice, hq]
  rw [hq, ← hprice, hkey]

theorem Readable.quantity_eq (h : Readable big levels) (hl : l ∈ levelsAt big levels p) :
    parseU128 l.quantity = some (levelQuantity l) := by
  obtain ⟨q, hq⟩ := h.quantity l (StableGroups.mem_group.1 hl).1
  simp [levelQuantity, hq]

theorem Summable.cons_iff (hn : 0 < n) :
    Summable big levels (n + 1) (p :: prices) ↔
      OneText big levels p ∧ Summable big levels n prices := by
  obtain ⟨m, rfl⟩ := Nat.exists_eq_add_of_lt hn
  simp [Summable, and_assoc]

theorem Summable.one_iff : Summable big levels 1 (p :: prices) ↔ FirstOnly big levels p := by
  simp [Summable]

theorem oneText_iff {a : BookLevel} {tail : List BookLevel}
    (hgroup : levelsAt big levels p = a :: tail) :
    OneText big levels p ↔ ∀ b ∈ tail, b.price = a.price := by
  unfold OneText
  rw [hgroup]
  constructor
  · exact fun h b hb => h b (List.mem_cons_of_mem a hb) a List.mem_cons_self
  · intro h
    have hall : ∀ d ∈ a :: tail, d.price = a.price := List.forall_mem_cons.2 ⟨rfl, h⟩
    exact fun b hb c hc => (hall b hb).trans (hall c hc).symm

theorem firstOnly_iff {a : BookLevel} {tail : List BookLevel}
    (hgroup : levelsAt big levels p = a :: tail) :
    FirstOnly big levels p ↔ (tail.map levelQuantity).sum = 0 := by
  unfold FirstOnly
  rw [hgroup, List.tail_cons, List.sum_eq_zero_iff]
  simp

/-- The groups of the prices, one after the other, are merged into the aggregated book exactly when
they are summable. -/
theorem mergeLevels_aggregated_iff (h : Readable big levels) {done : List BookLevel}
    (hn : 0 < n) (hnodup : prices.Nodup) (hsub : ∀ p ∈ prices, levelsAt big levels p ≠ [])
    (hlast : ∀ last ∈ done.getLast?, ∃ p, big.parse last.price = some p ∧ p ∉ prices) :
    (mergeLevels (done.length + n) done (prices.flatMap (levelsAt big levels))).map
        (readLevel big) = done.map (readLevel big) ++ aggregated big levels n prices ↔
      Summable big levels n prices := by
  induction prices generalizing done n with
  | nil => simp [mergeLevels, aggregated, Summable]
  | cons p prices ih =>
      obtain ⟨hp, hnodup⟩ := List.nodup_cons.1 hnodup
      obtain ⟨a, tail, hgroup⟩ := List.exists_cons_of_ne_nil (hsub p List.mem_cons_self)
      have hmem : ∀ b ∈ a :: tail, b ∈ levelsAt big levels p := fun b hb => hgroup ▸ hb
      have ha := h.parse_eq (hmem a List.mem_cons_self)
      have haq := h.quantity_eq (hmem a List.mem_cons_self)
      have hdepth : depthAt big levels p = levelQuantity a + (tail.map levelQuantity).sum := by
        unfold depthAt
        rw [hgroup, List.map_cons, List.sum_cons]
      have hpush : ∀ last ∈ done.getLast?, last.price ≠ a.price := by
        intro last hl heq
        obtain ⟨q, hq, hqp⟩ := hlast last hl
        rw [heq, ha] at hq
        cases hq
        exact hqp List.mem_cons_self
      rw [List.flatMap_cons, hgroup, List.cons_append, mergeLevels_push hpush]
      rcases Nat.lt_or_ge 1 n with hmore | hone
      · obtain ⟨m, rfl⟩ := Nat.exists_eq_add_of_lt hmore
        rw [if_neg (by omega)]
        have hpos : 0 < 1 + m := by omega
        rw [Summable.cons_iff hpos]
        by_cases htext : ∀ b ∈ tail, b.price = a.price
        · -- one text: the group becomes one level and the rest goes on behind it
          obtain ⟨a', hprice, hquantity, hrest⟩ := mergeLevels_sum (done.length + (1 + m + 1))
            done haq htext
            (fun b hb => ⟨_, h.quantity_eq (hmem b (List.mem_cons_of_mem a hb))⟩)
            (by rw [← hdepth]; exact h.fits p)
          have hOne : OneText big levels p := (oneText_iff hgroup).2 htext
          have hread : readLevel big a' = (some p, some (depthAt big levels p)) := by
            unfold readLevel
            rw [hprice, ha, hquantity, hdepth]
          have hapart : ∀ last ∈ (done ++ [a']).getLast?,
              ∃ q, big.parse last.price = some q ∧ q ∉ prices := by
            intro last hl
            rw [List.getLast?_concat] at hl
            cases hl
            exact ⟨p, by rw [hprice, ha], hp⟩
          have hih := ih hpos hnodup (fun q hq => hsub q (List.mem_cons_of_mem p hq)) hapart
          rw [hrest]
          have hlen : (done ++ [a']).length + (1 + m) = done.length + (1 + m + 1) := by
            rw [List.length_append, List.length_singleton]
            omega
          rw [hlen] at hih
          rw [and_iff_right hOne, ← hih]
          have hagg : done.map (readLevel big) ++ aggregated big levels (1 + m + 1) (p :: prices) =
              (done ++ [a']).map (readLevel big) ++ aggregated big levels (1 + m) prices := by
            simp [aggregated, hread]
          rw [hagg]
        · -- two texts: the price is listed twice
          have hnot : ¬OneText big levels p := fun hOne => htext ((oneText_iff hgroup).1 hOne)
          push Not at htext
          obtain ⟨quantity, b, hb, quantity', more, heq⟩ :=
            mergeLevels_split (done.length + (1 + m + 1)) done
              (prices.flatMap (levelsAt big levels)) htext
          have hbp := h.parse_eq (hmem b (List.mem_cons_of_mem a hb))
          rw [heq, iff_false_right (fun hs => hnot hs.1), List.map_append]
          intro hlist
          have hlist := List.append_cancel_left hlist
          have hsecond : ∃ q ∈ prices, some q = some p := by
            cases prices with
            | nil => simp [aggregated] at hlist
            | cons q prices =>
                simp [aggregated, readLevel, hbp, Nat.add_comm 1 m] at hlist
                exact ⟨q, List.mem_cons_self, by simpa using hlist.2.1.1.symm⟩
          obtain ⟨q, hq, heq⟩ := hsecond
          cases heq
          exact hp hq
      · have hn1 : n = 1 := by omega
        subst hn1
        rw [if_pos le_rfl, Summable.one_iff, List.map_append]
        rw [firstOnly_iff hgroup, List.append_cancel_left_eq]
        simp [aggregated, readLevel, ha, haq, hdepth]

theorem readable_of_sum (hprice : ∀ l ∈ levels, (big.parse l.price).isSome)
    (hquantity : ∀ l ∈ levels, (parseU128 l.quantity).isSome)
    (hsum : (levels.map levelQuantity).sum ≤ u128Max) : Readable big levels := by
  refine ⟨fun l hl => Option.isSome_iff_exists.1 (hprice l hl),
    fun l hl => Option.isSome_iff_exists.1 (hquantity l hl), fun p => le_trans ?_ hsum⟩
  have hsub : List.Sublist (levelsAt big levels p) levels := List.filter_sublist
  exact (hsub.map levelQuantity).sum_le_sum fun _ _ => Nat.zero_le _

end Book

section Order

variable {bids : Bool}

instance : Std.Total (bookOrder bids) := by
  constructor
  intro p q
  cases bids
  · exact le_total p q
  · exact le_total q p

instance : IsTrans ℚ (bookOrder bids) := by
  constructor
  intro p q r hpq hqr
  cases bids
  · exact le_trans (α := ℚ) hpq hqr
  · exact le_trans (α := ℚ) hqr hpq

instance : Std.Antisymm (bookOrder bids) := by
  constructor
  intro p q hpq hqp
  cases bids
  · exact le_antisymm (α := ℚ) hpq hqp
  · exact le_antisymm (α := ℚ) hqp hpq

end Order

section Listing

variable (big : BigDecimals) (poolLevels limitLevels : List BookLevel) (depth : ℕ) (bids : Bool)

/-- The first `depth` distinct prices are listed, strictly in the order of the side, and each with
all that rests at it. -/
structure MergesExactly : Prop where
  levels : (mergeOrderbookSides big poolLevels limitLevels depth bids).map (readLevel big) =
    aggregated big (poolLevels ++ limitLevels) depth
      (bookPrices big (poolLevels ++ limitLevels) bids)
  strict : ((mergeOrderbookSides big poolLevels limitLevels depth bids).map
    (levelPrice big)).Pairwise fun p q => bookOrder bids p q ∧ p ≠ q

variable {big poolLevels limitLevels depth bids}

theorem bookPrices_strict {levels : List BookLevel} :
    (bookPrices big levels bids).Pairwise fun p q => bookOrder bids p q ∧ p ≠ q :=
  List.Pairwise.and StableGroups.keys_pairwise StableGroups.keys_nodup

/-- A listing with the aggregated levels is in the order of the side. -/
theorem strict_of_levels {out levels : List BookLevel}
    (h : out.map (readLevel big) = aggregated big levels depth (bookPrices big levels bids)) :
    (out.map (levelPrice big)).Pairwise fun p q => bookOrder bids p q ∧ p ≠ q := by
  have hprices : out.map (levelPrice big) = (bookPrices big levels bids).take depth := by
    have hfst := congrArg (List.map fun r => r.1.getD 0) h
    rw [List.map_map, aggregated, List.map_map] at hfst
    have hkey : levelPrice big = fun l => (big.parse l.price).getD 0 := rfl
    rw [hkey]
    simpa [Function.comp_def, readLevel] using hfst
  rw [hprices]
  exact bookPrices_strict.sublist (List.take_sublist _ _)

theorem mergeOrderbookSides_eq (hdepth : 1 ≤ depth) :
    mergeOrderbookSides big poolLevels limitLevels depth bids = mergeLevels depth []
      ((bookPrices big (poolLevels ++ limitLevels) bids).flatMap
        (levelsAt big (poolLevels ++ limitLevels))) := by
  unfold mergeOrderbookSides
  dsimp only
  rw [max_eq_left hdepth, sortLevels, StableGroups.sortBy_eq]
  by_cases hempty : poolLevels ++ limitLevels = []
  · rw [if_pos hempty, hempty]
    rfl
  · rw [if_neg hempty]
    rfl

/-- The levels of a listing are the aggregated ones exactly when they can be summed. -/
theorem mergeOrderbookSides_aggregated_iff (hdepth : 1 ≤ depth)
    (h : Readable big (poolLevels ++ limitLevels)) :
    (mergeOrderbookSides big poolLevels limitLevels depth bids).map (readLevel big) =
        aggregated big (poolLevels ++ limitLevels) depth
          (bookPrices big (poolLevels ++ limitLevels) bids) ↔
      Summable big (poolLevels ++ limitLevels) depth
        (bookPrices big (poolLevels ++ limitLevels) bids) := by
  have hnodup : (bookPrices big (poolLevels ++ limitLevels) bids).Nodup := StableGroups.keys_nodup
  have hstart : ∀ last ∈ ([] : List BookLevel).getLast?, ∃ p, big.parse last.price = some p ∧
      p ∉ bookPrices big (poolLevels ++ limitLevels) bids := by simp
  have hmerge := mergeLevels_aggregated_iff h hdepth hnodup
    (fun p hp => StableGroups.group_ne_nil hp) hstart
  rw [List.length_nil, Nat.zero_add] at hmerge
  rw [← mergeOrderbookSides_eq hdepth] at hmerge
  exact hmerge

/-- The merged listing is the aggregated book exactly when each price before the last listed one
has a single text, and the first level of the last listed one holds all that rests there. -/
theorem merges_exactly_iff (hdepth : 1 ≤ depth)
    (h : Readable big (poolLevels ++ limitLevels)) :
    MergesExactly big poolLevels limitLevels depth bids ↔
      Summable big (poolLevels ++ limitLevels) depth
        (bookPrices big (poolLevels ++ limitLevels) bids) := by
  rw [← mergeOrderbookSides_aggregated_iff hdepth h]
  constructor
  · exact fun hexact => hexact.levels
  · exact fun hlevels => ⟨hlevels, strict_of_levels hlevels⟩

section Limits

variable {side price remaining : String} {l : BookLevel} {pool : List BookLevel}

/-- A listed limit has a positive price and quantity. -/
theorem limitOrderToLevel_reads (h : limitOrderToLevel big side price remaining = some l) :
    ∃ p q, readLevel big l = (some p, some q) ∧ 0 < p ∧ 0 < q := by
  have hle : ∀ {s : String} {n : ℕ}, parseU128 s = some n → n ≤ u128Max := by
    intro s n hs
    unfold parseU128 at hs
    split at hs <;> exact digitsValue_le hs
  obtain ⟨rem, hrem, h⟩ := Option.bind_eq_some_iff.1 h
  obtain ⟨p, hp, h⟩ := Option.bind_eq_some_iff.1 h
  obtain ⟨hrem, hremPos⟩ := Option.filter_eq_some_iff.1 hrem
  obtain ⟨hp, hppos⟩ := Option.filter_eq_some_iff.1 hp
  obtain ⟨q, hq, hqpos, rfl⟩ : ∃ q, q ≤ u128Max ∧ 0 < q ∧ l = ⟨price, toString q⟩ := by
    dsimp only at h
    split at h
    · obtain ⟨q, hbase, h⟩ := Option.bind_eq_some_iff.1 h
      obtain ⟨hbase, hbasePos⟩ := Option.filter_eq_some_iff.1 hbase
      exact ⟨q, hle hbase, of_decide_eq_true hbasePos, (Option.some.inj h).symm⟩
    · exact ⟨rem, hle hrem, of_decide_eq_true hremPos, (Option.some.inj h).symm⟩
  refine ⟨p, q, ?_, of_decide_eq_true hppos, hqpos⟩
  unfold readLevel
  rw [parseU128_toString hq, hp]

/-- The levels of the resting limits that can be listed. -/
def restingLevels (big : BigDecimals) (limits : List LimitBookOrderItem) : List BookLevel :=
  limits.filterMap fun o => limitOrderToLevel big o.side o.price o.remaining

/-- Listed limits never keep a side from being read. -/
theorem readable_side (limits : List LimitBookOrderItem)
    (hpool : ∀ l ∈ pool, ∃ p q, readLevel big l = (some p, some q))
    (hfits : ∀ p, depthAt big (pool ++ restingLevels big limits) p ≤ u128Max) :
    Readable big (pool ++ restingLevels big limits) := by
  have hreads : ∀ l ∈ pool ++ restingLevels big limits,
      ∃ p q, readLevel big l = (some p, some q) := by
    refine List.forall_mem_append.2 ⟨hpool, fun l hl => ?_⟩
    obtain ⟨o, -, ho⟩ := List.mem_filterMap.1 hl
    obtain ⟨p, q, hread, -⟩ := limitOrderToLevel_reads ho
    exact ⟨p, q, hread⟩
  refine ⟨fun l hl => ?_, fun l hl => ?_, hfits⟩
  · obtain ⟨p, q, hread⟩ := hreads l hl
    exact ⟨p, congrArg Prod.fst hread⟩
  · obtain ⟨p, q, hread⟩ := hreads l hl
    exact ⟨q, congrArg Prod.snd hread⟩

/-- Both sides of the hybrid book aggregate a readable pool ladder and the resting limits exactly
when their levels can be summed. -/
theorem buildHybridBook_aggregated_iff {pool : OrderbookData}
    {bidLimits askLimits : List LimitBookOrderItem} (hdepth : 1 ≤ depth)
    (hpool : ∀ l ∈ pool.bids ++ pool.asks, ∃ p q, readLevel big l = (some p, some q))
    (hbids : ∀ p, depthAt big (pool.bids ++ restingLevels big bidLimits) p ≤ u128Max)
    (hasks : ∀ p, depthAt big (pool.asks ++ restingLevels big askLimits) p ≤ u128Max) :
    let book := buildHybridBook big pool bidLimits askLimits depth
    let bidLevels := pool.bids ++ restingLevels big bidLimits
    let askLevels := pool.asks ++ restingLevels big askLimits
    (book.bids.map (readLevel big) =
        aggregated big bidLevels depth (bookPrices big bidLevels true) ↔
      Summable big bidLevels depth (bookPrices big bidLevels true)) ∧
    (book.asks.map (readLevel big) =
        aggregated big askLevels depth (bookPrices big askLevels false) ↔
      Summable big askLevels depth (bookPrices big askLevels false)) := by
  obtain ⟨hpoolBids, hpoolAsks⟩ := List.forall_mem_append.1 hpool
  constructor
  · exact mergeOrderbookSides_aggregated_iff hdepth (readable_side bidLimits hpoolBids hbids)
  · exact mergeOrderbookSides_aggregated_iff hdepth (readable_side askLimits hpoolAsks hasks)

end Limits

end Listing

section Samples

/-- Digits with at most one point between them. -/
def plainDecimal (s : String) : Option ℚ :=
  let whole := s.toList.takeWhile (· ≠ '.')
  match s.toList.dropWhile (· ≠ '.') with
  | [] => (digitsValue whole).map fun n => (n : ℚ)
  | _ :: fraction => do
      let w ← digitsValue whole
      let f ← digitsValue fraction
      return w + f / 10 ^ fraction.length

def plainDecimals : BigDecimals where
  parse := plainDecimal
  quotient p q := p / q
  print p := toString p.num

/-- Two levels at the best price, and a third one behind them. -/
theorem merges_exactly_iff_sample :
    MergesExactly plainDecimals [⟨"1.5", "100"⟩, ⟨"1.25", "7"⟩] [⟨"1.5", "50"⟩] 2 true := by
  have hdepth : 1 ≤ 2 := by decide
  have hread : Readable plainDecimals
      ([⟨"1.5", "100"⟩, ⟨"1.25", "7"⟩] ++ [⟨"1.5", "50"⟩]) := by
    apply readable_of_sum
    · decide +kernel
    · decide +kernel
    · decide +kernel
  apply (merges_exactly_iff hdepth hread).2
  decide +kernel

/-- The limit at the only listed price is dropped. -/
theorem merge_loses_depth :
    Readable plainDecimals ([⟨"1.5", "100"⟩] ++ [⟨"1.5", "50"⟩]) ∧
      mergeOrderbookSides plainDecimals [⟨"1.5", "100"⟩] [⟨"1.5", "50"⟩] 1 true =
        [⟨"1.5", "100"⟩] ∧
      ¬MergesExactly plainDecimals [⟨"1.5", "100"⟩] [⟨"1.5", "50"⟩] 1 true := by
  refine ⟨?_, ?_, ?_⟩
  · apply readable_of_sum
    · decide +kernel
    · decide +kernel
    · decide +kernel
  · decide +kernel
  · intro h
    exact absurd h.levels (by decide +kernel)

end Samples

end Cl8yDex.Listing
