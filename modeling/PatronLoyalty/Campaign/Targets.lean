import Mathlib.Data.List.Permutation
import PatronLoyalty.Campaign.Program
import PatronLoyalty.Txn.Effects
import PatronLoyalty.Txn.Sequential

/-!
# Whom a campaign is sent to

A launch takes `none` from `resolvePresetCustomerIds` for "no segment", which is also what that
function answers for the presets that are conditions; under those a launch goes to every account.

Headline: **`launch_targets_iff`**, when the send rows of a launch are the segment's.
-/

namespace PatronLoyalty.Campaign

open Txn Loyalty Crm

variable {orgId campaignId : Id} {campaign : LoyaltyCampaign} {preset : CustomerSegmentPreset}
  {today : Time} {s : Db}

/-- The send rows a launch creates are for members of the segment, as the directory lists it in the
same store at the same time. -/
def TargetsMembers (orgId campaignId : Id) (campaign : LoyaltyCampaign)
    (preset : CustomerSegmentPreset) (today : Time) (s : Db) : Prop :=
  ∀ (env : Env) (accounts : List Id), env.today = today →
    ((selectTargets orgId campaign).eval env 0 s).answer = .ok accounts →
      ∀ send ∈ sendRows orgId campaignId accounts, ∃ a : LoyaltyAccount,
        s.get .account send.accountId = some a ∧ InSegment orgId preset today s a.customerId

/-- **The condition**: the preset is a list of the organisation's customers; or the list of inactive
accounts, all of them of its customers; or a condition, and every account is a member's. -/
def Targeted (orgId : Id) (preset : CustomerSegmentPreset) (today : Time) (s : Db) : Prop :=
  listsCustomers preset = true ∨
  (preset = .loyaltyInactive90d ∧ ∀ (id : Id) (a : LoyaltyAccount), s.get .account id = some a →
    a.orgId = orgId → inactive90d orgId today s id = true →
      ∃ c : Customer, s.get .customer a.customerId = some c ∧ c.orgId = orgId) ∨
  ((presetWhere orgId s preset).isSome = true ∧ ∀ (id : Id) (a : LoyaltyAccount),
    s.get .account id = some a → a.orgId = orgId → InSegment orgId preset today s a.customerId)

/-! ## What a launch selects -/

theorem mem_takeAny {α : Type} {limit n : ℕ} {rows : List α} {x : α}
    (h : x ∈ takeAny limit n rows) : x ∈ rows := by
  unfold takeAny at h
  have hx := List.mem_of_mem_take h
  cases hp : rows.permutations'[n % rows.permutations'.length]? with
  | none =>
    rw [hp] at hx
    cases hx
  | some ys =>
    rw [hp] at hx
    exact (List.mem_permutations'.mp (List.mem_of_getElem? hp)).mem_iff.mp hx

theorem exists_takeAny {α : Type} [DecidableEq α] (limit : ℕ) (hl : 0 < limit) {rows : List α}
    {x : α} (h : x ∈ rows) : ∃ n, x ∈ takeAny limit n rows := by
  have hp : x :: rows.erase x ∈ rows.permutations' :=
    List.mem_permutations'.mpr (List.perm_cons_erase h).symm
  obtain ⟨n, hn, he⟩ := List.getElem_of_mem hp
  refine ⟨n, ?_⟩
  unfold takeAny
  rw [Nat.mod_eq_of_lt hn, List.getElem?_eq_getElem hn, he]
  obtain ⟨k, rfl⟩ : ∃ k, limit = k + 1 := ⟨limit - 1, by omega⟩
  exact List.mem_cons_self

theorem mem_targets {ids : Option (List Id)} {x : Id} : x ∈ targets orgId ids s ↔
    ∃ a : LoyaltyAccount, s.get .account x = some a ∧ a.orgId = orgId ∧
      ids.all (fun ids => ids.contains a.customerId) = true := by
  unfold targets
  rw [List.mem_map]
  constructor
  · rintro ⟨⟨i, a⟩, hm, rfl⟩
    obtain ⟨hg, hp⟩ := Rel.mem_rows.mp hm
    obtain ⟨hv, hp⟩ := Bool.and_eq_true_iff.mp hp
    exact ⟨a, hg, by simpa [visible, tenantPolicy, orgOf] using hv, hp⟩
  · rintro ⟨a, hg, ho, hp⟩
    refine ⟨(x, a), Rel.mem_rows.mpr ⟨hg, ?_⟩, rfl⟩
    simp only [visible, orgOf, ho, hp, BEq.rfl, Bool.or_true, Bool.and_true]

theorem selectTargets_eval (hp : (truthy campaign.segmentPreset).bind presetOf = some preset)
    (env : Env) : ((selectTargets orgId campaign).eval env 0 s).answer =
      .ok (takeAny 500 (env.pick 0)
        (targets orgId (resolvePresetCustomerIds orgId preset env.today s) s)) := by
  obtain ⟨text, ht, hpre⟩ := Option.bind_eq_some_iff.mp hp
  have hseg : segmentIds orgId campaign env.today s =
      .ok (resolvePresetCustomerIds orgId preset env.today s) := by
    unfold segmentIds
    rw [ht]
    dsimp only
    rw [hpre]
  have hread : (resolveSegment orgId campaign).eval env 0 [] s =
      (.ok (resolvePresetCustomerIds orgId preset env.today s, []), 0) := by
    refine Tx.eval_exec (n := 0) ?_
    rw [view_nil, hseg]
    rfl
  unfold selectTargets withTenant
  rw [Call.bind_eq, Call.eval_bind, Call.eval_readTx hread]
  rfl

theorem targetsMembers_iff_all (hp : (truthy campaign.segmentPreset).bind presetOf = some preset) :
    TargetsMembers orgId campaignId campaign preset today s ↔
      ∀ x ∈ targets orgId (resolvePresetCustomerIds orgId preset today s) s,
        ∃ a : LoyaltyAccount, s.get .account x = some a ∧
          InSegment orgId preset today s a.customerId := by
  constructor
  · intro h x hx
    obtain ⟨n, hn⟩ := exists_takeAny 500 (by decide) hx
    exact h ⟨fun _ => n, today⟩ _ rfl (selectTargets_eval hp _) ⟨orgId, campaignId, x, _, _, _⟩
      (List.mem_map.mpr ⟨x, hn, rfl⟩)
  · rintro h env accounts rfl he send hsend
    rw [selectTargets_eval hp] at he
    cases he
    obtain ⟨x, hx, rfl⟩ := List.mem_map.mp hsend
    exact h x (mem_takeAny hx)

/-! ## The presets -/

theorem members_of_listed (hl : listsCustomers preset = true) {x : Id}
    (hx : x ∈ targets orgId (resolvePresetCustomerIds orgId preset today s) s) :
    ∃ a : LoyaltyAccount, s.get .account x = some a ∧
      InSegment orgId preset today s a.customerId := by
  obtain ⟨ids, hids⟩ : ∃ ids, resolvePresetCustomerIds orgId preset today s = some ids := by
    cases preset <;> cases hl <;> exact ⟨_, rfl⟩
  obtain ⟨a, ha, -, hc⟩ := mem_targets.mp hx
  rw [hids, Option.all_some] at hc
  exact ⟨a, ha, inSegment_of_listed hl hids (by simpa using hc)⟩

theorem mem_inactive {customerId : Id} : customerId ∈ loyaltyInactive90d orgId today s ↔
    ∃ (id : Id) (a : LoyaltyAccount), s.get .account id = some a ∧ a.orgId = orgId ∧
      inactive90d orgId today s id = true ∧ a.customerId = customerId := by
  unfold loyaltyInactive90d
  rw [List.mem_map]
  constructor
  · rintro ⟨⟨i, a⟩, hm, rfl⟩
    obtain ⟨hg, hp⟩ := Rel.mem_rows.mp hm
    obtain ⟨hv, hp⟩ := Bool.and_eq_true_iff.mp hp
    exact ⟨i, a, hg, by simpa [visible, tenantPolicy, orgOf] using hv, hp, rfl⟩
  · rintro ⟨id, a, hg, ho, hp, rfl⟩
    refine ⟨(id, a), Rel.mem_rows.mpr ⟨hg, ?_⟩, rfl⟩
    simp only [visible, orgOf, ho, hp, BEq.rfl, Bool.or_true, Bool.and_true]

theorem inSegment_inactive {customerId : Id} :
    InSegment orgId .loyaltyInactive90d today s customerId ↔
      (∃ c : Customer, s.get .customer customerId = some c ∧ c.orgId = orgId) ∧
        customerId ∈ loyaltyInactive90d orgId today s := by
  unfold InSegment segmentWhere
  simp [presetWhere, resolvePresetCustomerIds, ← and_assoc]

theorem members_inactive_iff :
    (∀ x ∈ targets orgId (some (loyaltyInactive90d orgId today s)) s,
      ∃ a : LoyaltyAccount, s.get .account x = some a ∧
        InSegment orgId .loyaltyInactive90d today s a.customerId) ↔
    ∀ (id : Id) (a : LoyaltyAccount), s.get .account id = some a → a.orgId = orgId →
      inactive90d orgId today s id = true →
        ∃ c : Customer, s.get .customer a.customerId = some c ∧ c.orgId = orgId := by
  constructor
  · intro h id a ha ho hi
    have hlist : a.customerId ∈ loyaltyInactive90d orgId today s :=
      mem_inactive.mpr ⟨id, a, ha, ho, hi, rfl⟩
    obtain ⟨a', ha', hm⟩ := h id (mem_targets.mpr ⟨a, ha, ho, by simpa using hlist⟩)
    rw [ha] at ha'
    cases ha'
    exact (inSegment_inactive.mp hm).1
  · intro h x hx
    obtain ⟨a, ha, -, hc⟩ := mem_targets.mp hx
    have hlist : a.customerId ∈ loyaltyInactive90d orgId today s := by simpa using hc
    obtain ⟨id, a', ha', ho', hi', he⟩ := mem_inactive.mp hlist
    exact ⟨a, ha, inSegment_inactive.mpr ⟨he ▸ h id a' ha' ho' hi', hlist⟩⟩

/-- A condition: the launch goes to every account. -/
theorem members_all_iff : (∀ x ∈ targets orgId none s, ∃ a : LoyaltyAccount,
      s.get .account x = some a ∧ InSegment orgId preset today s a.customerId) ↔
    ∀ (id : Id) (a : LoyaltyAccount), s.get .account id = some a → a.orgId = orgId →
      InSegment orgId preset today s a.customerId := by
  constructor
  · intro h id a ha ho
    obtain ⟨a', ha', hm⟩ := h id (mem_targets.mpr ⟨a, ha, ho, rfl⟩)
    rw [ha] at ha'
    cases ha'
    exact hm
  · intro h x hx
    obtain ⟨a, ha, ho, -⟩ := mem_targets.mp hx
    exact ⟨a, ha, h x a ha ho⟩

/-- **Whom a launch sends to.** For every organisation, campaign with a preset, time and store: the
send rows of a launch are for members of the segment, whatever the database returns first, if and
only if the preset is resolved to a list of the organisation's customers, or every account is a
member's. -/
theorem launch_targets_iff (hp : (truthy campaign.segmentPreset).bind presetOf = some preset) :
    TargetsMembers orgId campaignId campaign preset today s ↔ Targeted orgId preset today s := by
  rw [targetsMembers_iff_all hp]
  unfold Targeted
  cases hl : listsCustomers preset with
  | true => exact iff_of_true (fun x hx => members_of_listed hl hx) (Or.inl rfl)
  | false =>
    cases preset with
    | repeatVisitors90d => cases hl
    | appointmentNoShowLast => cases hl
    | lowRatingReview => cases hl
    | loyaltyInactive90d => simpa [resolvePresetCustomerIds, presetWhere] using members_inactive_iff
    | marketingSmsOptedIn => simpa [resolvePresetCustomerIds, presetWhere] using members_all_iff
    | loyaltyVip => simpa [resolvePresetCustomerIds, presetWhere] using members_all_iff
    | loyaltyHighLtv => simpa [resolvePresetCustomerIds, presetWhere] using members_all_iff
    | loyaltyRfmChampions => simpa [resolvePresetCustomerIds, presetWhere] using members_all_iff
    | loyaltyAtRisk => simpa [resolvePresetCustomerIds, presetWhere] using members_all_iff

/-- An offer for VIP members, in an organisation with one patron, who is none. -/
def vipOffer : LoyaltyCampaign :=
  { orgId := 1, name := "VIP evening", channel := "SMS", segmentPreset := "loyalty_vip" }

def reviewersOffer : LoyaltyCampaign := { vipOffer with segmentPreset := "low_rating_review" }

def ada : Customer := { orgId := 1, name := "Ada" }

def club : Db :=
  ((Rel.empty.set .customer 10 ada).set .account 20
    { orgId := 1, customerId := 10, tierId := none, referralCode := "AAAA2222" }).set
    .campaign 60 vipOffer

theorem launch_targets_iff_reviewers :
    TargetsMembers 1 60 reviewersOffer .lowRatingReview 0 club ↔ Targeted 1 .lowRatingReview 0 club :=
  launch_targets_iff rfl

/-- The offer goes to her all the same. -/
def atNoon : Env := ⟨fun _ => 1, 43200⟩

set_option maxRecDepth 100000 in
/-- **A launch goes beyond its segment.** -/
theorem launch_beyond_segment : ((launch 1 60).eval atNoon 0 club).db.get .campaignSend 1 =
      some { orgId := 1, campaignId := 60, accountId := 20, status := .skipped
             error := "Marketing SMS not consented" } ∧
    club.get .account 20 = some { orgId := 1, customerId := 10, tierId := none
                                  referralCode := "AAAA2222" } ∧
    ¬ InSegment 1 .loyaltyVip 43200 club 10 := by
  refine ⟨by decide +kernel, by decide +kernel, ?_⟩
  rintro ⟨c, hg, -, hs⟩
  have hada : club.get .customer 10 = some ada := by decide +kernel
  cases hg.symm.trans hada
  revert hs
  decide +kernel

end PatronLoyalty.Campaign
