import Cl8yDex.CommunityExecute
import Cl8yDex.Holdings

/-!
# The shares of the sinks

The tax is shared among the sinks without loss, and paying the shares moves each balance by what
its owner's sinks got. Checked arithmetic on one balance at a time is inverted here once.
-/

namespace Cl8yDex.CommunityTax

open Outcome Holdings

variable {s s' : Storage} {host : Host} {env : Env} {sender : Addr}

section Sinks

variable {config : Config} {tax allocated : ℕ} {sinks : List StoredSink} {cs : List SinkCredit}

def SinkCredit.paidTo (a : Addr) (c : SinkCredit) : ℕ :=
  if c.burn then 0 else if a = c.addr then c.share else 0

def SinkCredit.burned (c : SinkCredit) : ℕ := if c.burn then c.share else 0

/-- What the sinks pay to an address. -/
def paid (cs : List SinkCredit) (a : Addr) : ℕ := (cs.map (SinkCredit.paidTo a)).sum

def burned (cs : List SinkCredit) : ℕ := (cs.map SinkCredit.burned).sum

def shared (cs : List SinkCredit) : ℕ := (cs.map SinkCredit.share).sum

theorem sinkShare_last {last : Bool} {bps share : ℕ}
    (h : sinkShare last tax allocated bps = .ok share) (hlast : last = true) :
    allocated + share = tax := by
  rw [sinkShare, if_pos hlast, orThrow_eq_ok, checkedSub_eq_some] at h
  omega

theorem shared_splitFrom (hne : sinks ≠ []) (h : splitFrom config tax allocated sinks = .ok cs) :
    allocated + shared cs = tax := by
  induction sinks generalizing allocated cs with
  | nil => exact absurd rfl hne
  | cons sink sinks ih =>
      unfold splitFrom at h
      obtain ⟨share, hshare, h⟩ := bind_eq_ok.1 h
      obtain ⟨sum, hsum, h⟩ := bind_eq_ok.1 h
      rw [orThrow_eq_ok, checkedAdd_eq_some] at hsum
      obtain ⟨-, rfl⟩ := hsum
      have hrest : ∀ rest, splitFrom config tax (allocated + share) sinks = .ok rest →
          allocated + (share + shared rest) = tax := by
        intro rest hr
        cases hs : sinks with
        | nil =>
            rw [hs] at hr
            cases hr
            have hlast := sinkShare_last hshare (by rw [hs]; rfl)
            simp only [shared, List.map_nil, List.sum_nil]
            omega
        | cons next more =>
            have htotal := ih (by rw [hs]; exact List.cons_ne_nil _ _) hr
            omega
      by_cases hz : share = 0
      · rw [if_pos hz] at h
        have htotal := hrest cs h
        omega
      · rw [if_neg hz] at h
        obtain ⟨target, -, h⟩ := bind_eq_ok.1 h
        obtain ⟨rest, hr, h⟩ := bind_eq_ok.1 h
        cases h
        exact hrest rest hr

/-- The shares of the sinks are the tax. -/
theorem shared_sinkCredits (h : sinkCredits s tax = .ok cs) : shared cs = tax := by
  unfold sinkCredits at h
  by_cases hz : tax = 0
  · rw [if_pos hz] at h
    cases h
    rw [hz]
    rfl
  · rw [if_neg hz] at h
    cases hs : s.sinks with
    | none =>
        rw [hs] at h
        cases h
        simp [shared]
    | some sinks =>
        rw [hs] at h
        cases sinks with
        | nil =>
            cases h
            simp [shared]
        | cons sink sinks =>
            simp only at h
            split_ifs at h
            · have htotal := shared_splitFrom (List.cons_ne_nil _ _) h
              omega
            · cases h
              simp [shared]

theorem shared_eq (cs : List SinkCredit) : ∃ n, Sums (paid cs) n ∧ n + burned cs = shared cs := by
  induction cs with
  | nil => exact ⟨0, Sums.zero, rfl⟩
  | cons c cs ih =>
      obtain ⟨n, hn, htotal⟩ := ih
      have hone : Sums (fun a => c.paidTo a) (if c.burn then 0 else c.share) := by
        unfold SinkCredit.paidTo
        by_cases hb : c.burn
        · simp only [if_pos hb]
          exact Sums.zero
        · simp only [if_neg hb]
          exact Sums.single c.addr c.share
      refine ⟨_, hone.add hn, ?_⟩
      simp only [burned, shared, List.map_cons, List.sum_cons, SinkCredit.burned] at htotal ⊢
      split_ifs <;> omega

end Sinks

section Balances

theorem addrValidate_eq_ok {a b : Addr} (h : host.addrValidate a = .ok b) : b = a := by
  unfold Host.addrValidate at h
  split_ifs at h
  cases h
  rfl

variable {balances balances' : Addr → ℕ} {a : Addr} {amount : ℕ}

theorem addBalance_eq_ok (h : addBalance balances a amount = .ok balances') (b : Addr) :
    balances' b = balances b + if b = a then amount else 0 := by
  obtain ⟨sum, hsum, h⟩ := bind_eq_ok.1 h
  rw [orThrow_eq_ok, checkedAdd_eq_some] at hsum
  cases h
  by_cases hb : b = a
  · rw [if_pos hb, hb, Function.update_self, hsum.2]
  · rw [if_neg hb, Function.update_of_ne hb, Nat.add_zero]

theorem subBalance_eq_ok (h : subBalance balances a amount = .ok balances') :
    amount ≤ balances a ∧
      ∀ b, balances' b + (if b = a then amount else 0) = balances b := by
  obtain ⟨left, hleft, h⟩ := bind_eq_ok.1 h
  rw [orThrow_eq_ok, checkedSub_eq_some] at hleft
  cases h
  refine ⟨hleft.1, fun b => ?_⟩
  by_cases hb : b = a
  · rw [if_pos hb, hb, Function.update_self, hleft.2]
    omega
  · rw [if_neg hb, Function.update_of_ne hb, Nat.add_zero]

theorem addBalance_of_le (h : balances a + amount ≤ u128Max) :
    addBalance balances a amount = .ok (Function.update balances a (balances a + amount)) := by
  simp only [addBalance, checkedAdd, if_pos h]
  rfl

theorem subBalance_of_le (h : amount ≤ balances a) :
    subBalance balances a amount = .ok (Function.update balances a (balances a - amount)) := by
  simp only [subBalance, checkedSub, if_pos h]
  rfl

/-- The loop over the sinks pays each address its shares and adds up the burned ones. -/
theorem creditSinks_eq_ok {cs : List SinkCredit} {out : (Addr → ℕ) × ℕ}
    (h : creditSinks balances cs = .ok out) :
    (∀ b, out.1 b = balances b + paid cs b) ∧ out.2 = burned cs := by
  suffices hloop : ∀ acc, cs.foldlM creditSink acc = .ok out →
      (∀ b, out.1 b = acc.1 b + paid cs b) ∧ out.2 = acc.2 + burned cs by
    have hall := hloop _ h
    simpa using hall
  clear h
  induction cs with
  | nil =>
      intro acc h
      cases h
      exact ⟨fun b => rfl, rfl⟩
  | cons c cs ih =>
      intro acc h
      rw [List.foldlM_cons] at h
      obtain ⟨mid, hmid, h⟩ := bind_eq_ok.1 h
      obtain ⟨hb, hr⟩ := ih mid h
      unfold creditSink at hmid
      simp only [paid, burned, List.map_cons, List.sum_cons, SinkCredit.paidTo,
        SinkCredit.burned] at hb hr ⊢
      by_cases hburn : c.burn
      · rw [if_pos hburn] at hmid
        obtain ⟨sum, hsum, hmid⟩ := bind_eq_ok.1 hmid
        rw [orThrow_eq_ok, checkedAdd_eq_some] at hsum
        cases hmid
        simp only [if_pos hburn]
        constructor
        · intro b
          have hsame : out.1 b = acc.1 b + _ := hb b
          omega
        · rw [hr, hsum.2]
          omega
      · rw [if_neg hburn] at hmid
        obtain ⟨credited, hcredited, hmid⟩ := bind_eq_ok.1 hmid
        cases hmid
        simp only [if_neg hburn]
        constructor
        · intro b
          have hone := addBalance_eq_ok hcredited b
          have hrest : out.1 b = credited b + _ := hb b
          omega
        · have hrest : out.2 = acc.2 + _ := hr
          omega

theorem burnSupply_eq_ok {info info' : TokenInfo} {n : ℕ} (h : burnSupply info n = .ok info') :
    info'.totalSupply + n = info.totalSupply ∧ info'.mint = info.mint := by
  unfold burnSupply at h
  by_cases hz : n = 0
  · rw [if_pos hz] at h
    cases h
    exact ⟨by omega, rfl⟩
  · rw [if_neg hz] at h
    obtain ⟨supply, hsupply, h⟩ := bind_eq_ok.1 h
    rw [orThrow_eq_ok, checkedSub_eq_some] at hsupply
    cases h
    refine ⟨?_, rfl⟩
    change supply + n = info.totalSupply
    omega

theorem debitCredit_eq_ok {kind : TaxKind} {tax : ℕ} {moved : ℕ × ℕ}
    (h : debitCredit kind amount tax = .ok moved) (hhonest : kind = .honest → tax = 0) :
    moved.2 + tax = moved.1 ∧ (if kind = .sell then moved.2 = amount else moved.1 = amount) := by
  cases kind with
  | honest =>
      cases h
      have hz := hhonest rfl
      exact ⟨by omega, rfl⟩
  | sell =>
      obtain ⟨debit, hdebit, h⟩ := bind_eq_ok.1 h
      rw [orThrow_eq_ok, checkedAdd_eq_some] at hdebit
      cases h
      exact ⟨hdebit.2.symm, rfl⟩
  | buy | transfer =>
      obtain ⟨credit, hcredit, h⟩ := bind_eq_ok.1 h
      rw [orThrow_eq_ok, checkedSub_eq_some] at hcredit
      cases h
      refine ⟨?_, rfl⟩
      change credit + tax = amount
      omega

end Balances

end Cl8yDex.CommunityTax
