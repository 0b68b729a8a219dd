import Cl8yDex.RouteHops

/-!
# The reverse quote of pool-only routes

Every hop of the backward walk proposes an offer for the chain of the hops behind it. Where the walk
fails it is excused: the budget is exhausted, or no offer reaches the target.
-/

namespace Cl8yDex.Router

open Outcome FirstReaching

/-- An error that is never the last check's, and that only the budget can cause where `P` holds. -/
def Excused (P : Prop) (e : QuoteError) : Prop :=
  e ≠ .reverseForwardInsufficient ∧ (P → e = .reverseQueryBudgetExceeded)

variable {P P' : Prop}

theorem excused_std {e : StdError} (h : ¬P) : Excused P (.std e) :=
  ⟨nofun, fun hp => absurd hp h⟩

theorem excused_budget : Excused P .reverseQueryBudgetExceeded := ⟨nofun, fun _ => rfl⟩

theorem Excused.mono {e : QuoteError} (he : Excused P e) (h : P' → P) : Excused P' e :=
  ⟨he.1, fun hp => he.2 (h hp)⟩

theorem meets_asked {α : Type} {x : Except StdError α} {Q : α → Prop}
    (h : Meets x Q fun _ => ¬P) : Meets (asked x) Q (Excused P) := by
  cases x with
  | ok a => exact h
  | error e => exact excused_std h

theorem charge_meets (b : ReverseQueryBudget) (hop cost : ℕ) :
    Meets (b.charge hop cost) (fun _ => True) (Excused P) := by
  unfold ReverseQueryBudget.charge
  exact (meets_ensure fun _ => excused_budget).bind fun _ _ => trivial

theorem reserve_meets (hops : ℕ) :
    Meets (ReverseQueryBudget.reserve hops) (fun _ => True) (Excused P) :=
  Meets.foldlM (fun b hop _ => charge_meets b hop 1) trivial

variable {h : Hop} {q : QuoteContext} {trader sender : Option Addr} {t w hop : ℕ}
  {budget : ReverseQueryBudget}

section Buy

theorem reverseBuy_meets (hp : h.Priced q trader sender) (ht : 0 < t)
    (hP : P → (∃ p, preview (q.token h.ask) h.pair.contractAddr trader (some q.router) 10000 .buy =
      .ok p) ∧ (reaching (bought h.terms.buyBps) t).Nonempty) :
    Meets (asked (reverseBuy (q.token h.ask) h.pair.contractAddr trader q.router t))
      (IsLeast (reaching (bought h.terms.buyBps) t)) (Excused P) := by
  apply meets_asked
  unfold reverseBuy
  rw [if_neg ht.ne']
  cases hpreview : preview (q.token h.ask) h.pair.contractAddr trader (some q.router) 10000
      .buy with
  | error e =>
      intro hyp
      obtain ⟨⟨p, hok⟩, -⟩ := hP hyp
      rw [hpreview] at hok
      cases hok
  | ok p =>
      have hprobe : buyFromGross 10000 h.terms.buyBps = .ok p :=
        preview_sound hp.buys (by decide) hpreview
      have hbps := hp.buys.buyBps_lt
      have htax : p.tax = h.terms.buyBps := by
        rw [buyFromGross_probe hbps.le] at hprobe
        cases hprobe
        rfl
      rw [ok_bind]
      apply (reverseBuyAmount_meets htax hbps ht).mono
      · exact fun w hw => hw
      · intro _ hempty hyp
        exact (hP hyp).2.ne_empty hempty

end Buy

section Sell

/-- The probe of a budget of `10000 + sellBps` shows the rate that is charged. -/
theorem probe_rate {sellBps : ℕ} {exempt : Bool} {p : RouteTaxPreviewResponse}
    (hsell : sellBps ≤ u16Max)
    (hprobe : sellFromGross (10000 + sellBps) (effectiveRate exempt sellBps) = .ok p) :
    p.tax = effectiveRate exempt sellBps ∧ effectiveRate exempt sellBps ≤ 10000 := by
  cases exempt with
  | true =>
      have hfits : 10000 + sellBps ≤ u128Max := (Nat.add_le_add_left hsell 10000).trans (by decide)
      change sellFromGross (10000 + sellBps) 0 = .ok p at hprobe
      rw [sellFromGross_exempt hfits] at hprobe
      cases hprobe
      exact ⟨rfl, Nat.zero_le _⟩
  | false =>
      change sellFromGross (10000 + sellBps) sellBps = .ok p at hprobe
      have hbps : sellBps ≤ 10000 := by
        by_contra hgt
        rw [sellFromGross_error (not_le.1 hgt)] at hprobe
        cases hprobe
      rw [sellFromGross_probe hbps] at hprobe
      cases hprobe
      exact ⟨rfl, hbps⟩

theorem reverseSell_meets (hp : h.Priced q trader sender) (ht : t ≤ u128Max)
    (hP : P → (∀ x ≤ u128Max, ∃ p, preview (q.token h.offer) h.pair.contractAddr trader
      (some q.router) x .sell = .ok p) ∧ (reaching (funded h.terms.sellBps) t).Nonempty) :
    Meets (asked (reverseSell (q.token h.offer) h.pair.contractAddr trader q.router t))
      (IsLeast (reaching (funded h.terms.sellBps) t)) (Excused P) := by
  apply meets_asked
  unfold reverseSell
  cases hp.sells with
  | ordinary hcap hbps =>
      rw [hcap, hbps]
      exact reaching_exempt ht
  | taxed c exempt hcap hbuy hsell hrate hanswer =>
      have hfits : 10000 + c.sellBps ≤ u128Max :=
        (Nat.add_le_add_left hsell 10000).trans (by decide)
      rw [hcap, ok_bind]
      change Meets (previewWithCapability _ _ _ _ _ _ _ >>= _) _ _
      rw [← preview_taxed hcap]
      cases hpreview : preview (q.token h.offer) h.pair.contractAddr trader (some q.router)
          (10000 + c.sellBps) .sell with
      | error e =>
          intro hyp
          obtain ⟨p, hok⟩ := (hP hyp).1 _ hfits
          rw [hpreview] at hok
          cases hok
      | ok p =>
          have hprobe : sellFromGross (10000 + c.sellBps) h.terms.sellBps = .ok p :=
            preview_sound hp.sells hfits hpreview
          rw [hrate] at hprobe
          obtain ⟨htax, hbps⟩ := probe_rate hsell hprobe
          rw [ok_bind]
          have hrate' : h.terms.sellBps = effectiveRate exempt c.sellBps := hrate
          rw [← hrate'] at htax hbps
          apply (reverseSellAmount_meets htax hbps ht).mono
          · exact fun w hw => hw
          · intro _ hempty hyp
            exact (hP hyp).2.ne_empty hempty

end Sell

section Pool

theorem reverseEconomic_meets (hp : h.Priced q trader sender) (ht : t ≤ u128Max) (hpos : 0 < t)
    (hP : P → (reaching h.terms.pool t).Nonempty) :
    Meets (reverseEconomic trader sender h.pair (.token h.offer) (.token h.ask) none none hop t
      budget) (fun r => IsLeast (reaching h.terms.pool t) r.1) (Excused P) := by
  have hreaching : reaching h.terms.pool t =
      feasibleOffers h.terms.inputReserve h.terms.outputReserve h.terms.feeBps t :=
    reaching_pooled hp.inputReserve hp.outputReserve hpos
  unfold reverseEconomic
  apply (charge_meets budget hop _).bind
  intro b _
  have hsim := hp.answers.reverse t ht hpos
  rw [← hreaching] at hsim
  have hasked : Meets (asked (h.pair.hybridReverseSimulation ⟨.token h.ask, t⟩
      poolOnlyHybridTemplate trader sender none))
      (fun sim => IsLeast (reaching h.terms.pool t) sim.offerAmount) (Excused P) := by
    apply meets_asked
    apply hsim.mono
    · exact fun sim hleast => hleast
    · intro _ hempty hyp
      exact (hP hyp).ne_empty hempty
  exact hasked.bind fun sim hleast => hleast

end Pool

/-- The offer that a backward hop proposes. -/
structure Proposal (f : ℕ → Option ℕ) (t w : ℕ) : Prop extends Proposes f t w where
  pos : 0 < w
  le : w ≤ u128Max

/-- A hop that answers and whose stage can reach the target. -/
structure Hop.Meetable (h : Hop) (q : QuoteContext) (trader : Option Addr) (t : ℕ) : Prop where
  steady : h.Steady q trader
  ran : h.Ran q trader
  reached : (reaching h.terms.stage t).Nonempty

theorem reverseHop_meets (hp : h.Priced q trader sender) (ht : 0 < t) :
    Meets (reverseHop q trader sender hop h.operation (t, budget))
      (fun r => Proposal h.terms.stage t r.1) (Excused (h.Meetable q trader t)) := by
  have hadmitted := hp.admitted
  unfold reverseHop Hop.operation
  dsimp only
  rw [hp.listed]
  change Meets (asked _ >>= _) _ _
  have hbuy : Meets (asked (reverseBuy (q.token h.ask) h.pair.contractAddr trader q.router t))
      (IsLeast (reaching (bought h.terms.buyBps) t)) (Excused (h.Meetable q trader t)) := by
    apply reverseBuy_meets hp ht
    intro hm
    constructor
    · exact hm.ran.buy hp hm.steady (by decide)
    · exact reaching_tail (reaching_tail hm.reached)
  apply hbuy.bind
  intro g hg
  rw [ensure_pos (by decide), ok_bind]
  have hgpos := pos_of_reaching_bought hadmitted.buyBps.le ht hg.1
  have hgle : g ≤ u128Max := by
    obtain ⟨y, hy, -⟩ := hg.1
    exact (bought_within hadmitted.buyBps.le hy).1
  have hpool : Meets (reverseEconomic trader sender h.pair (.token h.offer) (.token h.ask) none none
      hop g budget) (fun r => IsLeast (reaching h.terms.pool g) r.1)
      (Excused (h.Meetable q trader t)) := by
    apply reverseEconomic_meets hp hgle hgpos
    intro hm
    exact reaching_head hg.2 (reaching_tail hm.reached)
  apply hpool.bind
  intro e he
  have hepos := pos_of_reaching_pooled hgpos he.1
  have hele : e.1 ≤ u128Max := by
    obtain ⟨y, hy, -⟩ := he.1
    exact (pooled_within hp.inputReserve hp.outputReserve hy).1
  have htrade : Proposes h.terms.trade t e.1 :=
    (Proposes.of_isLeast hg).andThen (bought_rising hadmitted.buyBps.le) (.of_isLeast he)
  have hsell : Meets (asked (reverseSell (q.token h.offer) h.pair.contractAddr trader q.router e.1))
      (IsLeast (reaching (funded h.terms.sellBps) e.1)) (Excused (h.Meetable q trader t)) := by
    apply reverseSell_meets hp hele
    intro hm
    constructor
    · exact fun x hx => hm.ran.sell hp hm.steady hx
    · exact reaching_head htrade.bound hm.reached
  change Meets (asked _ >>= _) _ _
  apply hsell.bind
  intro w hw
  constructor
  · exact htrade.andThen hadmitted.trade_rising (.of_isLeast hw)
  · exact pos_of_reaching_funded hepos hw.1
  · obtain ⟨y, hy, -⟩ := hw.1
    exact (funded_within hy).1

end Cl8yDex.Router
