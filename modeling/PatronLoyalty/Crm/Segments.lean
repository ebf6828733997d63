import PatronLoyalty.Loyalty.Referral

/-!
# Patron segments

`CustomerSegmentService`. A preset is either a condition on the customer (`presetWhere`) or a list of
customers (`resolvePresetCustomerIds`), and each of the two answers `none` for the presets of the
other. Both read the store under the tenant's policy; `lower` is ASCII here.
-/

namespace PatronLoyalty.Crm

open Txn Loyalty

/-- `LoyaltyTier.slug in ['gold', 'platinum', 'diamond']`. -/
def vipSlugs : List String := ["gold", "platinum", "diamond"]

/-- `c.phone IS NOT NULL AND x = c.phone`. -/
def samePhone (c : Customer) (phone : Option String) : Bool := c.phone.isSome && phone == c.phone

/-- `c.email IS NOT NULL AND lower(x) = lower(c.email)`. -/
def sameEmail (c : Customer) (email : Option String) : Bool :=
  c.email.isSome && email.map String.toLower == c.email.map String.toLower

/-- The customer's account satisfies `p`. -/
def hasAccount (orgId customerId : Id) (p : LoyaltyAccount → Bool) (s : Db) : Bool :=
  !(s.rows .account fun _ a => visible orgId .account a && a.customerId == customerId && p a).isEmpty

def vipTier (orgId : Id) (s : Db) (a : LoyaltyAccount) : Bool :=
  a.tierId.any fun id => ((s.get .tier id).filter (visible orgId .tier)).any fun t =>
    vipSlugs.contains t.slug

/-- `presetWhere`: the presets that are conditions on the customer. -/
def presetWhere (orgId : Id) (s : Db) : CustomerSegmentPreset → Option (Id → Customer → Bool)
  | .marketingSmsOptedIn => some fun _ c => c.marketingSmsConsent == "GRANTED"
  | .loyaltyVip => some fun id _ => hasAccount orgId id
      (fun a => vipTier orgId s a || decide (5000 ≤ a.lifetimePointsEarned)) s
  | .loyaltyHighLtv => some fun id _ => hasAccount orgId id
      (fun a => decide (100000 ≤ a.lifetimeValueCents)) s
  | .loyaltyRfmChampions => some fun id _ => hasAccount orgId id
      (fun a => decide (70 ≤ a.healthScore) && decide (5 ≤ a.totalVisits) &&
        decide (50000 ≤ a.lifetimeValueCents)) s
  | .loyaltyAtRisk => some fun id _ => hasAccount orgId id
      (fun a => a.churnRisk == .high || a.churnRisk == .medium) s
  | _ => none

def ticketOf (id : Id) (c : Customer) (t : Ticket) : Bool :=
  t.customerId == some id || samePhone c t.customerPhone || sameEmail c t.customerEmail

/-- The customers of an organisation that satisfy `p`. -/
def customersWhere (orgId : Id) (p : Id → Customer → Bool) (s : Db) : List Id :=
  (s.rows .customer fun id c => visible orgId .customer c && p id c).map (·.1)

/-- Three or more completed tickets and visits in ninety days. -/
def repeatVisitors90d (orgId : Id) (today : Time) (s : Db) : List Id :=
  customersWhere orgId (fun id c =>
    decide (3 ≤
      (s.rows .ticket fun _ t => visible orgId .ticket t && (t.completed || t.served) &&
        decide (today ≤ t.completedAt.getD t.bookedAt + 90 * daySeconds) && ticketOf id c t).length +
      (s.rows .visit fun _ v => visible orgId .visit v &&
        decide (today ≤ v.startedAt + 90 * daySeconds) &&
        (samePhone c v.customerPhone || sameEmail c v.customerEmail)).length)) s

def appointmentsOf (orgId : Id) (c : Customer) (s : Db) : List (Id × Appointment) :=
  s.rows .appointment fun _ a => visible orgId .appointment a &&
    (samePhone c a.customerPhone || sameEmail c a.customerEmail)

def appointmentNoShowLast (orgId : Id) (s : Db) : List Id :=
  customersWhere orgId (fun _ c => (appointmentsOf orgId c s).any fun a =>
    a.2.status == "no_show" &&
      (appointmentsOf orgId c s).all fun a' => decide (a'.2.scheduledAt ≤ a.2.scheduledAt)) s

/-- A review of three stars or less, under the customer's e-mail or name. -/
def lowRatingReview (orgId : Id) (s : Db) : List Id :=
  customersWhere orgId (fun _ c => !(s.rows .review fun _ r => visible orgId .review r &&
    decide (r.rating ≤ 3) &&
      (sameEmail c r.customerEmail || r.customerName.toLower == c.name.toLower)).isEmpty) s

/-- No movement of points in ninety days. -/
def inactive90d (orgId : Id) (today : Time) (s : Db) (accountId : Id) : Bool :=
  (ledgerWhere orgId (fun l => l.accountId == accountId &&
    decide (today ≤ l.createdAt + 90 * daySeconds)) s).isEmpty

def loyaltyInactive90d (orgId : Id) (today : Time) (s : Db) : List Id :=
  (s.rows .account fun id a => visible orgId .account a && inactive90d orgId today s id).map
    (·.2.customerId)

/-- `resolvePresetCustomerIds`: the presets that are lists of customers. -/
def resolvePresetCustomerIds (orgId : Id) (preset : CustomerSegmentPreset) (today : Time) (s : Db) :
    Option (List Id) :=
  match preset with
  | .repeatVisitors90d => some (repeatVisitors90d orgId today s)
  | .appointmentNoShowLast => some (appointmentNoShowLast orgId s)
  | .lowRatingReview => some (lowRatingReview orgId s)
  | .loyaltyInactive90d => some (loyaltyInactive90d orgId today s)
  | _ => none

def presetOf : String → Option CustomerSegmentPreset
  | "repeat_visitors_90d" => some .repeatVisitors90d
  | "appointment_no_show_last" => some .appointmentNoShowLast
  | "low_rating_review" => some .lowRatingReview
  | "marketing_sms_opted_in" => some .marketingSmsOptedIn
  | "loyalty_vip" => some .loyaltyVip
  | "loyalty_inactive_90d" => some .loyaltyInactive90d
  | "loyalty_high_ltv" => some .loyaltyHighLtv
  | "loyalty_rfm_champions" => some .loyaltyRfmChampions
  | "loyalty_at_risk" => some .loyaltyAtRisk
  | _ => none

/-- The condition of the customer directory for a preset: `presetWhere`, or else the list. -/
def segmentWhere (orgId : Id) (preset : CustomerSegmentPreset) (today : Time) (s : Db) (id : Id)
    (c : Customer) : Bool :=
  match presetWhere orgId s preset with
  | some p => p id c
  | none => ((resolvePresetCustomerIds orgId preset today s).getD []).contains id

def InSegment (orgId : Id) (preset : CustomerSegmentPreset) (today : Time) (s : Db) (id : Id) :
    Prop :=
  ∃ c : Customer, s.get .customer id = some c ∧ c.orgId = orgId ∧
    segmentWhere orgId preset today s id c = true

section

variable {orgId : Id} {preset : CustomerSegmentPreset} {today : Time} {s : Db} {id : Id}

theorem mem_customersWhere {p : Id → Customer → Bool} : id ∈ customersWhere orgId p s ↔
    ∃ c : Customer, s.get .customer id = some c ∧ c.orgId = orgId ∧ p id c = true := by
  unfold customersWhere
  rw [List.mem_map]
  constructor
  · rintro ⟨⟨i, c⟩, hm, rfl⟩
    obtain ⟨hg, hp⟩ := Rel.mem_rows.mp hm
    obtain ⟨hv, hp⟩ := Bool.and_eq_true_iff.mp hp
    exact ⟨c, hg, by simpa [visible, tenantPolicy, orgOf] using hv, hp⟩
  · rintro ⟨c, hg, ho, hp⟩
    refine ⟨(id, c), Rel.mem_rows.mpr ⟨hg, ?_⟩, rfl⟩
    simp [visible, orgOf, ho, hp]

def listsCustomers : CustomerSegmentPreset → Bool
  | .repeatVisitors90d | .appointmentNoShowLast | .lowRatingReview => true
  | _ => false

theorem inSegment_of_listed (hp : listsCustomers preset = true) {ids : List Id}
    (hids : resolvePresetCustomerIds orgId preset today s = some ids) (hm : id ∈ ids) :
    InSegment orgId preset today s id := by
  have hlist : ∀ p : Id → Customer → Bool, ids = customersWhere orgId p s →
      ∃ c : Customer, s.get .customer id = some c ∧ c.orgId = orgId := fun p he => by
    obtain ⟨c, hg, ho, -⟩ := mem_customersWhere.mp (he ▸ hm)
    exact ⟨c, hg, ho⟩
  have found : ∃ c : Customer, s.get .customer id = some c ∧ c.orgId = orgId := by
    cases preset <;> cases hp <;> exact hlist _ (Option.some.inj hids).symm
  have hnone : presetWhere orgId s preset = none := by
    cases preset <;> cases hp <;> rfl
  obtain ⟨c, hg, ho⟩ := found
  refine ⟨c, hg, ho, ?_⟩
  unfold segmentWhere
  rw [hnone, hids]
  simpa using hm

end

end PatronLoyalty.Crm
