import PatronLoyalty.Loyalty.Accounting

/-!
# Point expiry

`expireInactivePoints` selects the accounts that hold points, with their balances, in one
transaction; then, account by account, it reads the last activity in a second and expires the
*selected* balance in a third. Nothing holds the account between the three. `Turn` follows the loop
along the run's own history, and `Turn.ready` says what has to hold of the account it is at: nobody
moves it during its turn, and if it is inactive when its turn comes it has the balance it was
selected with.

Headline: **`reach_expiry`**. In every run in which the account at hand is ready at each step, an
account is expired only when it is inactive, by its whole balance, the run fails only with the
database, and no account that is and stays inactive is left out; the other accounts may change as
they will.
-/

namespace PatronLoyalty.Loyalty

open Txn Relation

/-- One run of `expireInactivePoints`, from the moment it has read the clock, with the accounts it
selects. -/
structure ExpiryRun where
  orgId : Id
  pointsExpiryDays : ℕ
  today : Time
  selected : List AccountView

namespace ExpiryRun

/-- `expireInactivePoints` past its guard and its clock. -/
def call (e : ExpiryRun) : LCall ℕ := do
  let accounts ← withTenant (findMany e.orgId .account fun _ a => decide (0 < a.pointsBalance))
  Call.foldEach accounts 0 (expireAccount e.orgId e.pointsExpiryDays e.today)

variable (e : ExpiryRun)

def window : ℕ := e.pointsExpiryDays * daySeconds

def movements (x : Id) (s : Db) : List LoyaltyPointLedger :=
  ledgerWhere e.orgId (fun l => l.accountId == x) s

/-- An account has been active after the cutoff. -/
def active (x : Id) (s : Db) : Bool :=
  (e.movements x s).any fun l => decide (e.today < l.createdAt + e.window)

/-- An account has been active, but not after the cutoff. -/
def stale (x : Id) (s : Db) : Bool := !(e.movements x s).isEmpty && !e.active x s

/-- No activity falls on the cutoff itself. -/
def sharp (x : Id) (s : Db) : Bool :=
  (e.movements x s).all fun l => l.createdAt + e.window != e.today

def candidates (s : Db) : List AccountView :=
  s.rows .account fun _ a => visible e.orgId .account a && decide (0 < a.pointsBalance)

def balance (x : Id) (s : Db) : Option ℤ :=
  ((s.get .account x).filter (visible e.orgId .account)).map (·.pointsBalance)

end ExpiryRun

/-! ## The loop along its history -/

/-- Where the loop is: at the selection, about to read the last activity of the first account that
is left, or about to expire one. `seen` is the store the last commit before this turn has left. -/
inductive Turn
  | scan
  | next (seen : Db) (rest : List AccountView)
  | hand (seen : Db) (x : AccountView) (rest : List AccountView)

namespace Turn

variable (e : ExpiryRun)

/-- The loop commits a transaction that takes the store from `a` to `b`. -/
def commit (a b : Db) : Turn → Turn
  | scan => next b (e.candidates a)
  | next seen [] => next seen []
  | next seen (x :: rest) => if e.stale x.1 seen then hand seen x rest else next b rest
  | hand _ _ rest => next b rest

def after (t : Turn) : Entry Db Err Ev Answer → Turn
  | .commit a b => t.commit e a b
  | _ => t

def left : Turn → List AccountView
  | scan => []
  | next _ rest => rest
  | hand _ x rest => x :: rest

end Turn

/-- An account is as it was seen, and if it is inactive, with the balance it was selected with. -/
def ExpiryRun.steady (e : ExpiryRun) (seen : Db) (x : AccountView) (s : Db) : Bool :=
  e.movements x.1 s == e.movements x.1 seen && e.balance x.1 s == e.balance x.1 seen &&
    (!e.stale x.1 seen || (e.balance x.1 seen == some x.2.pointsBalance && e.sharp x.1 seen))

/-- **The accounts at hand are ready**, in the state before the step: during the selection the ones
that hold points do not change, and afterwards the one whose turn it is does not, unless it has been
active after the cutoff when its turn comes. -/
def Turn.ready (e : ExpiryRun) (s : Db) : Turn → Bool
  | scan => e.candidates s == e.selected
  | next _ [] => true
  | next seen (x :: _) => e.active x.1 seen || e.steady seen x s
  | hand seen x _ => e.steady seen x s

namespace ExpiryRun

variable (e : ExpiryRun)

/-- Where the loop is after the history `h`. -/
def turnOf (h : Hist) : Turn := h.foldl (Turn.after e) .scan

/-- The store the first commit of a history saw. -/
def scanOf : Hist → Option Db
  | [] => none
  | .commit a _ :: _ => some a
  | _ :: h => scanOf h

def start (db : Db) (reqs : List Request) : Run :=
  Config.init db ((do
    let n ← e.call
    pure (.expired n)) :: reqs.map Request.call)

/-- **The condition on the run**: at each of its own steps the accounts at hand are ready. -/
def Undisturbed (c : Run) (i : ℕ) : Prop := i = 0 → (e.turnOf (c.histOf 0)).ready e c.db = true

instance (c : Run) (i : ℕ) : Decidable (e.Undisturbed c i) :=
  inferInstanceAs (Decidable (i = 0 → _ = true))

/-- An EXPIRE of the account's whole balance, with no activity at or after the cutoff. -/
def Expires (x : Id) (a b : Db) : Prop :=
  ∃ (r : LoyaltyAccount) (l : LoyaltyPointLedger), a.get .account x = some r ∧
    b.log = a.log ++ [l] ∧ l.orgId = e.orgId ∧ l.accountId = x ∧ l.type = .expire ∧
    l.points = -r.pointsBalance ∧ ∀ l' ∈ e.movements x a, l'.createdAt + e.window < e.today

/-- An account that was inactive when it was selected has been expired, or was seen with other
movements than then. -/
def Done (h : Hist) (a₀ : Db) (x : Id) : Prop :=
  e.stale x a₀ = true → (∃ a b, .commit a b ∈ h ∧ e.Expires x a b) ∨
    ∃ a b, .commit a b ∈ h ∧ e.movements x a ≠ e.movements x a₀

/-- **What the run has done**, by its history: it debits an account only by its whole balance and
without activity at or after the cutoff, it fails with the database only, and when it is over every
account that was inactive, and stayed as it was, has been expired. -/
structure Lawful (h : Hist) : Prop where
  debits {a b : Db} : .commit a b ∈ h → b = a ∨ ∃ x, e.Expires x a b
  failures {err : Err} : .answer (.error err) ∈ h → Faulty.fault err = true
  complete {ans : Answer} : .answer (.ok ans) ∈ h → ∃ a₀, scanOf h = some a₀ ∧
    ∀ x ∈ e.candidates a₀, e.Done h a₀ x.1

/-! ## Histories that grow -/

section

variable {e} {h : Hist} {s : Db}

theorem turnOf_snoc (en : Entry Db Err Ev Answer) :
    e.turnOf (h ++ [en]) = (e.turnOf h).after e en := List.foldl_append

theorem scanOf_snoc (en : Entry Db Err Ev Answer) :
    scanOf (h ++ [en]) = (scanOf h).or (scanOf [en]) := by
  induction h with
  | nil => rfl
  | cons en' h ih =>
    cases en' with
    | commit a b => rfl
    | start => exact ih
    | rollback err => exact ih
    | emit v => exact ih
    | answer r => exact ih

theorem Done.snoc {a0 : Db} {x : Id} (hd : e.Done h a0 x) (en : Entry Db Err Ev Answer) :
    e.Done (h ++ [en]) a0 x := by
  intro hs
  rcases hd hs with ⟨a, b, hm, hx⟩ | ⟨a, b, hm, hx⟩
  · exact Or.inl ⟨a, b, List.mem_append_left _ hm, hx⟩
  · exact Or.inr ⟨a, b, List.mem_append_left _ hm, hx⟩

/-- The run is not over. -/
def Open (h : Hist) : Prop := ∀ r, .answer r ∉ h

theorem Lawful.snoc (hl : e.Lawful h) (ho : Open h) {o : Entry Db Err Ev Answer}
    (hc : ∀ a b, o = .commit a b → b = a ∨ ∃ x, e.Expires x a b)
    (ha : ∀ r, o ≠ .answer r) : e.Lawful (h ++ [o]) ∧ Open (h ++ [o]) := by
  have hopen : Open (h ++ [o]) := by
    intro r hm
    rcases mem_snoc.mp hm with hm | hm
    · exact ho r hm
    · exact ha r hm.symm
  refine ⟨⟨fun hm => ?_, fun hm => absurd hm (hopen _), fun hm => absurd hm (hopen _)⟩, hopen⟩
  rcases mem_snoc.mp hm with hm | hm
  · exact hl.debits hm
  · exact hc _ _ hm.symm

end

/-! ## Where the run stands -/

/-- What is known at a turn, in the store `s`. -/
def Fits (s : Db) : Turn → Prop
  | .scan => True
  | .next seen _ => Grows seen s
  | .hand seen x _ => e.stale x.1 seen = true

/-- Before the selection nothing is read; after it every account that was selected is done or is
left. -/
def Covered (h : Hist) : Turn → Prop
  | .scan => scanOf h = none
  | t => ∃ a₀, scanOf h = some a₀ ∧ (∀ x ∈ t.left, 0 < x.2.pointsBalance) ∧
      ∀ x ∈ e.candidates a₀, x ∈ t.left ∨ e.Done h a₀ x.1

/-- **The run stands at the turn `t`.** -/
structure At (t : Turn) (h : Hist) (s : Db) : Prop where
  turn : e.turnOf h = t
  running : Open h
  lawful : e.Lawful h
  fits : e.Fits s t
  covered : e.Covered h t

section

variable {e} {t : Turn} {h : Hist} {a b s s' : Db} {x : AccountView} {rest : List AccountView}
  {seen : Db}

theorem At.mono (ha : e.At t h s) (hg : Grows s s') : e.At t h s' := by
  refine ⟨ha.turn, ha.running, ha.lawful, ?_, ha.covered⟩
  cases t with
  | scan => trivial
  | next seen rest => exact ha.fits.trans hg
  | hand seen x rest => exact ha.fits

theorem Covered.snoc {o : Entry Db Err Ev Answer} (hc : e.Covered h t)
    (hn : ∀ a b, o ≠ .commit a b) : e.Covered (h ++ [o]) t := by
  have hscan : scanOf (h ++ [o]) = scanOf h := by
    rw [scanOf_snoc]
    cases o with
    | commit a b => exact absurd rfl (hn a b)
    | start | rollback | emit | answer => exact Option.or_none
  have later : ∀ a0, scanOf h = some a0 ∧ (∀ x ∈ t.left, 0 < x.2.pointsBalance) ∧
      (∀ x ∈ e.candidates a0, x ∈ t.left ∨ e.Done h a0 x.1) →
      ∃ a0, scanOf (h ++ [o]) = some a0 ∧ (∀ x ∈ t.left, 0 < x.2.pointsBalance) ∧
        ∀ x ∈ e.candidates a0, x ∈ t.left ∨ e.Done (h ++ [o]) a0 x.1 :=
    fun a0 ⟨ha0, hpos, hall⟩ =>
      ⟨a0, hscan.trans ha0, hpos, fun x hx => (hall x hx).imp_right fun hd => hd.snoc o⟩
  cases t with
  | scan => exact hscan.trans hc
  | next seen rest =>
    obtain ⟨a0, ha0⟩ := hc
    exact later a0 ha0
  | hand seen x rest =>
    obtain ⟨a0, ha0⟩ := hc
    exact later a0 ha0

theorem At.idle {o : Entry Db Err Ev Answer} (ha : e.At t h s) (hn : ∀ a b, o ≠ .commit a b)
    (hr : ∀ r, o ≠ .answer r) : e.At t (h ++ [o]) s := by
  obtain ⟨hl, ho⟩ := ha.lawful.snoc ha.running (fun a b he => absurd he (hn a b)) hr
  refine ⟨?_, ho, hl, ha.fits, ha.covered.snoc hn⟩
  rw [turnOf_snoc, ha.turn]
  cases o with
  | commit a b => exact absurd rfl (hn a b)
  | start | rollback | emit | answer => rfl

theorem At.commit (ha : e.At t h a) (hab : b = a ∨ ∃ x, e.Expires x a b)
    (hf : e.Fits b (t.commit e a b)) (hc : e.Covered (h ++ [.commit a b]) (t.commit e a b)) :
    e.At (t.commit e a b) (h ++ [.commit a b]) b := by
  obtain ⟨hl, ho⟩ := ha.lawful.snoc ha.running (o := .commit a b)
    (fun a' b' he => by cases he; exact hab) fun r he => by cases he
  refine ⟨?_, ho, hl, hf, hc⟩
  rw [turnOf_snoc, ha.turn]
  rfl

/-- **The selection.** -/
theorem At.selects (ha : e.At .scan h a) (hr : Turn.scan.ready e a = true) :
    e.At (.next a e.selected) (h ++ [.commit a a]) a := by
  have hsel : e.candidates a = e.selected := eq_of_beq hr
  have hscan : scanOf (h ++ [.commit a a]) = some a := by
    rw [scanOf_snoc, show scanOf h = none from ha.covered]
    rfl
  rw [← hsel]
  refine ha.commit (t := .scan) (Or.inl rfl) (Grows.refl a) ⟨a, hscan, fun x hx => ?_, fun x hx =>
    Or.inl hx⟩
  obtain ⟨id, r⟩ := x
  have hp := (Rel.mem_rows.mp (show (id, r) ∈ e.candidates a from hx)).2
  exact of_decide_eq_true (Bool.and_eq_true_iff.mp hp).2

theorem active_mono (hg : Grows a b) {x : Id} (ha : e.active x a = true) : e.active x b = true := by
  unfold active movements ledgerWhere at *
  obtain ⟨l, hl, hlt⟩ := List.any_eq_true.mp ha
  obtain ⟨hm, hp⟩ := List.mem_filter.mp hl
  exact List.any_eq_true.mpr ⟨l, List.mem_filter.mpr ⟨hg.mem_log hm, hp⟩, hlt⟩

theorem not_stale_of_active {x : Id} (ha : e.active x s = true) : e.stale x s = false := by
  unfold stale
  rw [ha]
  simp

theorem stale_congr {x : Id} (hm : e.movements x b = e.movements x a) :
    e.stale x b = e.stale x a := by
  unfold stale active
  rw [hm]

theorem steady_iff : e.steady seen x s = true ↔ e.movements x.1 s = e.movements x.1 seen ∧
    e.balance x.1 s = e.balance x.1 seen ∧ (e.stale x.1 seen = true →
      e.balance x.1 seen = some x.2.pointsBalance ∧ e.sharp x.1 seen = true) := by
  unfold steady
  cases hs : e.stale x.1 seen <;> simp [and_assoc]

/-- **At an account's turn** it is as inactive as it was when its turn came. -/
theorem stale_eq (hf : e.Fits s (.next seen (x :: rest)))
    (hr : (Turn.next seen (x :: rest)).ready e s = true) : e.stale x.1 s = e.stale x.1 seen := by
  rcases Bool.or_eq_true_iff.mp hr with ha | hs
  · rw [not_stale_of_active ha, not_stale_of_active (active_mono hf ha)]
  · exact stale_congr (steady_iff.mp hs).1

/-- The first account that is left has been active: on to the next one. -/
theorem At.passes (ha : e.At (.next seen (x :: rest)) h a)
    (hr : (Turn.next seen (x :: rest)).ready e a = true) (hs : e.stale x.1 seen = false) :
    e.At (.next a rest) (h ++ [.commit a a]) a := by
  have hnext : (Turn.next seen (x :: rest)).commit e a a = .next a rest := by
    simp only [Turn.commit, hs, Bool.false_eq_true, if_false]
  obtain ⟨a0, ha0, hpos, hall⟩ := ha.covered
  have hstep := ha.commit (b := a) (Or.inl rfl)
  rw [hnext] at hstep
  refine hstep (Grows.refl a)
    ⟨a0, ?_, fun y hy => hpos y (List.mem_cons_of_mem _ hy), fun y hy => ?_⟩
  · rw [scanOf_snoc, ha0]
    rfl
  rcases hall y hy with hleft | hdone
  · rcases List.mem_cons.mp hleft with rfl | hrest
    · refine Or.inr fun hstale => Or.inr ⟨a, a, by simp, fun hm => ?_⟩
      rw [← stale_congr hm, stale_eq ha.fits hr, hs] at hstale
      cases hstale
    · exact Or.inl hrest
  · exact Or.inr (hdone.snoc _)

/-- The first account that is left has been inactive: it is to be expired. -/
theorem At.holds (ha : e.At (.next seen (x :: rest)) h a) (hs : e.stale x.1 seen = true) :
    e.At (.hand seen x rest) (h ++ [.commit a a]) a := by
  have hnext : (Turn.next seen (x :: rest)).commit e a a = .hand seen x rest := by
    simp only [Turn.commit, hs, if_true]
  obtain ⟨a0, ha0, hpos, hall⟩ := ha.covered
  have hstep := ha.commit (b := a) (Or.inl rfl)
  rw [hnext] at hstep
  refine hstep hs ⟨a0, ?_, hpos, fun y hy => (hall y hy).imp_right fun hd => hd.snoc _⟩
  rw [scanOf_snoc, ha0]
  rfl

/-- **A debit of the account at hand** expires it. -/
theorem expires_of_posts {m : Movement} {r r' : LoyaltyAccount}
    (hf : e.Fits a (.hand seen x rest)) (hr : (Turn.hand seen x rest).ready e a = true)
    (ho : m.orgId = e.orgId) (hx : m.accountId = x.1) (ht : m.type = .expire)
    (hpts : m.points = x.2.pointsBalance) (hp : Posts m r r' a b) : e.Expires x.1 a b := by
  obtain ⟨hmov, hbal, hsel⟩ := steady_iff.mp hr
  obtain ⟨hsel, hsharp⟩ := hsel hf
  have hfound : a.get .account x.1 = some r := hx ▸ hp.found
  have hpoints : r.pointsBalance = x.2.pointsBalance := by
    unfold balance at hbal hsel
    rw [hsel, hfound, Option.filter_some,
      if_pos (show visible e.orgId .account r = true from
        visible_account.mpr (hp.org.trans ho))] at hbal
    exact Option.some.inj hbal
  refine ⟨r, _, hfound, hp.log, ho, hx, ht, ?_, fun l hl => ?_⟩
  · show (if isDebitLedgerType m.type then -m.points else m.points) = _
    rw [ht, hpts, hpoints]
    rfl
  · rw [hmov] at hl
    have hstale : e.active x.1 seen = false := by
      have := (Bool.and_eq_true_iff.mp (show e.stale x.1 seen = true from hf)).2
      simpa using this
    have hle := List.any_eq_false.mp hstale l hl
    have hne := List.all_eq_true.mp hsharp l hl
    simp only [decide_eq_true_eq, not_lt, bne_iff_ne, ne_eq] at hle hne
    exact lt_of_le_of_ne hle hne

/-- **The account at hand is expired**: on to the next one. -/
theorem At.expires (ha : e.At (.hand seen x rest) h a) (hx : e.Expires x.1 a b) :
    e.At (.next b rest) (h ++ [.commit a b]) b := by
  obtain ⟨a0, ha0, hpos, hall⟩ := ha.covered
  refine ha.commit (t := .hand seen x rest) (Or.inr ⟨x.1, hx⟩) (Grows.refl b)
    ⟨a0, ?_, fun y hy => hpos y (List.mem_cons_of_mem _ hy), fun y hy => ?_⟩
  · rw [scanOf_snoc, ha0]
    rfl
  rcases hall y hy with hleft | hdone
  · rcases List.mem_cons.mp hleft with rfl | hrest
    · exact Or.inr fun _ => Or.inl ⟨a, b, by simp, hx⟩
    · exact Or.inl hrest
  · exact Or.inr (hdone.snoc _)

end

/-! ## The loop -/

/-- **The protocol of the run.** -/
def expiring : Protocol Db Err Ev Answer anyStep where
  cond h s := (e.turnOf h).ready e s = true
  keeps h _ := e.Lawful h
  keeps_stable _ h := h

/-- The loop goes on with `rest`, or has failed with the database. -/
def Onward {β : Type} (rest : List AccountView) (r : Except Err β) (h : Hist) (s : Db) : Prop :=
  match r with
  | .ok _ => ∃ seen, e.At (.next seen rest) h s
  | .error err => Faulty.fault err = true ∧ ∃ t, e.At t h s

/-- The account is due, by its last activity. -/
def due (l : Option LoyaltyPointLedger) : Bool :=
  l.any fun l => !decide (e.today < l.createdAt + e.window)

section

variable {e} {t : Turn} {h : Hist} {a b s s' : Db} {x : AccountView} {rest : List AccountView}
  {seen : Db} {A : Db → Prop}

/-- **The last activity** tells whether the account is inactive. -/
theorem wp_lastActivity {exc : Err → Db → Prop} :
    Tx.wp anyStep A (fun l => Did anyStep fun a c => c = a ∧
      ∃ s', A s' ∧ anyStep.rel s s' ∧ e.due l = e.stale x.1 s') exc
      (lastActivity e.orgId x.1) [] s := by
  refine Did.wp_findFirst did_start fun s' n hG hA hd => ?_
  refine hd.mono fun a c hac => ⟨hac.symm, s', hA, hG, ?_⟩
  rw [view_nil]
  generalize hx : (List.filter _ _)[n % _]? = y
  cases y with
  | none =>
    rw [List.getElem?_eq_none_iff] at hx
    have hnil : e.movements x.1 s' = [] := by
      by_contra hne
      obtain ⟨l, hl⟩ := Option.ne_none_iff_exists'.mp
        (mt (List.argmax_eq_none (f := fun l : LoyaltyPointLedger => l.createdAt)).mp hne)
      have hm : l ∈ (e.movements x.1 s').filter fun l =>
          (e.movements x.1 s').all fun l' => decide (l'.createdAt ≤ l.createdAt) :=
        List.mem_filter.mpr ⟨List.argmax_mem hl, List.all_eq_true.mpr fun l' hl' =>
          decide_eq_true (List.le_of_mem_argmax hl' hl)⟩
      exact absurd (Nat.mod_lt n (List.length_pos_of_mem hm)) (Nat.not_lt.mpr hx)
    unfold stale
    rw [hnil]
    rfl
  | some l =>
    obtain ⟨hl, hmax⟩ := List.mem_filter.mp (List.mem_of_getElem? hx)
    have hne : (e.movements x.1 s').isEmpty = false := by
      cases hm : e.movements x.1 s' with
      | nil =>
        rw [show ledgerWhere e.orgId (fun l => l.accountId == x.1) s' = [] from hm] at hl
        cases hl
      | cons l ls => rfl
    have hact : e.active x.1 s' = decide (e.today < l.createdAt + e.window) := by
      rw [Bool.eq_iff_iff]
      constructor
      · intro ha
        obtain ⟨l', hl', hlt⟩ := List.any_eq_true.mp ha
        have hle := of_decide_eq_true (List.all_eq_true.mp hmax l' hl')
        exact decide_eq_true (lt_of_lt_of_le (of_decide_eq_true hlt) (Nat.add_le_add_right hle _))
      · exact fun hlt => List.any_eq_true.mpr ⟨l, hl, hlt⟩
    show (!decide _) = _
    unfold stale
    rw [hne, hact]
    rfl

theorem wp_turn {β : Type} {tx : LTx β} {R : β → Db → Db → Prop} {L : β → Hist → Db → Prop}
    (ha : e.At t h s) (hL : ∀ b h s, L b h s → ∃ t, e.At t h s)
    (htx : ∀ s', e.At t h s' → Tx.wp anyStep (fun s => t.ready e s = true)
      (fun b => Did anyStep (R b)) (fun err _ => Faulty.fault err = true) tx [] s')
    (hR : ∀ b a c, t.ready e a = true → e.At t h a → R b a c →
      anyStep.rel a c ∧ L b (h ++ [.commit a c]) c) :
    Call.wp e.expiring (fun r h' s' => match r with
      | .ok b => L b h' s'
      | .error err => Faulty.fault err = true ∧ e.At t h' s') (withTenant tx) h s := by
  have hcond : ∀ s, e.expiring.cond h s = (t.ready e s = true) := fun s => by
    show ((e.turnOf h).ready e s = true) = _
    rw [ha.turn]
  refine Call.wp_phaseTx_err (K := e.At t) (L := L) (R := R)
    (X := fun err => Faulty.fault err = true) (fun _ _ hk => hk.lawful) (fun b h s hl => ?_)
    (fun _ _ _ hG hk => hk.mono (Steps.grows hG))
    (fun _ _ _ hk => hk.idle (fun _ _ he => by cases he) fun _ he => by cases he)
    (fun _ hf => hf) ha (fun s' hG hc => ?_) fun b a c hc hk hr => ?_
  · obtain ⟨t', ht'⟩ := hL b h s hl
    exact ht'.lawful
  · rw [show e.expiring.cond h = fun s => t.ready e s = true from funext hcond]
    exact htx s' (ha.mono (Steps.grows hG))
  · exact hR b a c (hcond a ▸ hc) hk hr

/-- **The selection.** -/
theorem wp_select (ha : e.At .scan h s) :
    Call.wp e.expiring (fun r h' s' => match r with
      | .ok accounts => accounts = e.selected ∧ ∃ seen, e.At (.next seen e.selected) h' s'
      | .error err => Faulty.fault err = true ∧ e.At .scan h' s')
      (withTenant (findMany e.orgId .account fun _ a => decide (0 < a.pointsBalance))) h s := by
  refine wp_turn (R := fun accounts a c => c = a ∧ accounts = e.selected)
    (L := fun accounts h s => accounts = e.selected ∧ ∃ seen, e.At (.next seen e.selected) h s)
    ha (fun _ _ _ hl => ⟨_, hl.2.choose_spec⟩) (fun s' _ => ?_) ?_
  · refine Did.wp_read did_start fun s1 _ hA hd => hd.mono fun a c hac => ⟨hac.symm, ?_⟩
    exact eq_of_beq hA
  · rintro accounts a _ hr hk ⟨rfl, hsel⟩
    exact ⟨anyStep.refl _, hsel, _, hk.selects hr⟩

/-- **The last activity** of the first account that is left. -/
theorem wp_look (ha : e.At (.next seen (x :: rest)) h s) :
    Call.wp e.expiring (fun r h' s' => match r with
      | .ok l => if e.due l then e.At (.hand seen x rest) h' s'
          else ∃ seen, e.At (.next seen rest) h' s'
      | .error err => Faulty.fault err = true ∧ e.At (.next seen (x :: rest)) h' s')
      (withTenant (lastActivity e.orgId x.1)) h s := by
  refine wp_turn (R := fun l a c => c = a ∧ e.due l = e.stale x.1 seen)
    (L := fun l h s => if e.due l then e.At (.hand seen x rest) h s
      else ∃ seen, e.At (.next seen rest) h s)
    ha (fun l h s hl => ?_) (fun s' hk => ?_) ?_
  · split at hl
    · exact ⟨_, hl⟩
    · exact ⟨_, hl.choose_spec⟩
  · refine Tx.wp_mono (fun l ws s1 hd => hd.mono ?_) (fun _ _ he => he) (wp_lastActivity (x := x))
    rintro a c ⟨rfl, s2, hready, hG, hdue⟩
    exact ⟨rfl, hdue.trans (stale_eq (hk.mono (Steps.grows hG)).fits hready)⟩
  · rintro l a _ hr hk ⟨rfl, hdue⟩
    refine ⟨anyStep.refl _, ?_⟩
    rw [hdue]
    split
    · rename_i hs
      exact hk.holds hs
    · rename_i hs
      exact ⟨_, hk.passes hr (Bool.eq_false_iff.mpr hs)⟩

theorem wp_events (vs : List Ev) (ha : e.At (.next seen rest) h s) :
    Call.wp e.expiring (fun r h' s' => (∃ u, r = .ok u) ∧ e.At (.next seen rest) h' s')
      (Call.fireAll vs : LCall Unit) h s := by
  induction vs generalizing h s with
  | nil => exact ⟨⟨(), rfl⟩, ha⟩
  | cons v vs ih =>
    intro s' hG _
    have hnext := (ha.mono (Steps.grows hG)).idle (o := .emit v) (fun _ _ he => by cases he)
      fun _ he => by cases he
    exact ⟨hnext.lawful, ih hnext⟩

/-- **The debit of the account at hand** fails with the database only: the account is there, with
the balance it was selected with. -/
theorem wp_debit {opts : PointsOpts} (ha : e.At (.hand seen x rest) h s) :
    Call.wp e.expiring (fun r h' s' => match r with
      | .ok _ => ∃ seen, e.At (.next seen rest) h' s'
      | .error err => Faulty.fault err = true ∧ e.At (.hand seen x rest) h' s')
      (runApplyPoints e.orgId x.1 x.2.pointsBalance .expire opts) h s := by
  have hsrc : ∀ s, ¬ EarnedBefore e.orgId x.1 .expire opts s := by
    rintro s ⟨st, sid, hs, -⟩
    rw [earnSource_eq_none opts rfl] at hs
    cases hs
  have hpos : 0 < x.2.pointsBalance := by
    obtain ⟨a0, -, hpos, -⟩ := ha.covered
    exact hpos x List.mem_cons_self
  refine wp_turn (L := fun _ h s => ∃ seen, e.At (.next seen rest) h s)
    (R := Applied e.orgId x.1 x.2.pointsBalance .expire opts) ha
    (fun _ _ _ hl => ⟨_, hl.choose_spec⟩) (fun s' hk => ?_) ?_
  · refine wp_applyPointsInTransaction (fun _ _ h => Steps.grows h) (fun hle => absurd hpos
      (not_lt.mpr hle)) (fun s1 _ _ _ hA hc _ => ?_) (fun s1 _ he => absurd he (hsrc s1))
      fun _ u _ _ _ _ hu => ?_
    · -- the account has its balance
      obtain ⟨-, hbal, hsel⟩ := steady_iff.mp (show e.steady seen x s1 = true from hA)
      rw [(hsel ha.fits).1] at hbal
      unfold balance at hbal
      obtain ⟨r, hr, hrb⟩ := Option.map_eq_some_iff.mp hbal
      obtain ⟨hget, hvis⟩ := Option.filter_eq_some_iff.mp hr
      have := (hc r hget (visible_account.mp hvis)).2
      omega
    · cases hu
  · rintro res a b hr hk (⟨-, t, r, r', slug, -, hp⟩ | ⟨-, -, he⟩)
    · exact ⟨.single (.post trivial hp), b,
        hk.expires (expires_of_posts hk.fits hr rfl rfl rfl rfl hp)⟩
    · exact absurd he (hsrc a)

/-- **The account at hand** is expired, or the database fails. -/
theorem wp_expire {opts : PointsOpts} (ha : e.At (.hand seen x rest) h s) :
    Call.wp e.expiring (e.Onward rest)
      (applyPoints e.orgId x.1 x.2.pointsBalance .expire opts) h s := by
  have hrethrow : ∀ err : Err, isDuplicateEarnError err .expire opts = false := fun err => by
    unfold isDuplicateEarnError
    rw [earnSource_eq_none opts rfl]
    exact Bool.and_false _
  refine Call.wp_handle (Call.wp_mono (Q := e.Onward rest) (fun r h' s' hr => ?_) ?_)
  · cases r with
    | ok _ => exact hr
    | error err =>
      dsimp only
      rw [hrethrow err]
      exact hr
  refine Call.wp_bind (Call.wp_mono (fun r h1 s1 hr => ?_) (wp_debit ha))
  cases r with
  | error err => exact ⟨hr.1, _, hr.2⟩
  | ok result =>
    obtain ⟨seen', hat⟩ := hr
    dsimp only
    split
    · exact ⟨seen', hat⟩
    · refine Call.wp_bind (Call.wp_mono (fun r h2 s2 hr => ?_) (wp_events _ hat))
      obtain ⟨⟨u, rfl⟩, hat⟩ := hr
      exact ⟨seen', hat⟩

/-- **One account of the loop.** -/
theorem wp_expireAccount (expired : ℕ) (ha : e.At (.next seen (x :: rest)) h s) :
    Call.wp e.expiring (e.Onward rest)
      (expireAccount e.orgId e.pointsExpiryDays e.today expired x) h s := by
  refine Call.wp_bind (Call.wp_mono (fun r h1 s1 hr => ?_) (wp_look ha))
  cases r with
  | error err => exact ⟨hr.1, _, hr.2⟩
  | ok l =>
    cases l with
    | none => exact hr
    | some l =>
      dsimp only at hr ⊢
      unfold due at hr
      rw [Option.any_some] at hr
      split
      · rename_i hlt
        have hdue : ¬ (!decide (e.today < l.createdAt + e.window)) = true := by
          rw [decide_eq_true (show e.today < l.createdAt + e.window from hlt)]
          decide
        rw [if_neg hdue] at hr
        exact hr
      · rename_i hlt
        have hdue : (!decide (e.today < l.createdAt + e.window)) = true := by
          rw [decide_eq_false (show ¬ e.today < l.createdAt + e.window from hlt)]
          rfl
        rw [if_pos hdue] at hr
        refine Call.wp_bind (Call.wp_mono (fun r h2 s2 hr => ?_) (wp_expire hr))
        cases r <;> exact hr

/-- **The loop**, by the accounts that are left. -/
theorem wp_expireAll (expired : ℕ) (ha : e.At (.next seen rest) h s) :
    Call.wp e.expiring (e.Onward [])
      (Call.foldEach rest expired (expireAccount e.orgId e.pointsExpiryDays e.today)) h s := by
  induction rest generalizing seen expired h s with
  | nil => exact ⟨seen, ha⟩
  | cons x rest ih =>
    refine Call.wp_bind (Call.wp_mono (fun r h1 s1 hr => ?_) (wp_expireAccount expired ha))
    cases r with
    | error err => exact hr
    | ok expired =>
      obtain ⟨seen', hat⟩ := hr
      exact ih expired hat

/-- **The run** from its selection on. -/
theorem wp_call (ha : e.At .scan h s) : Call.wp e.expiring (e.Onward []) e.call h s := by
  refine Call.wp_bind (Call.wp_mono (fun r h1 s1 hr => ?_) (wp_select ha))
  cases r with
  | error err => exact ⟨hr.1, _, hr.2⟩
  | ok accounts =>
    obtain ⟨rfl, seen, hat⟩ := hr
    exact wp_expireAll 0 hat

end

/-! ## Runs -/

section

variable {e} {h : Hist} {s db : Db} {reqs : List Request} {c : Run}

theorem mem_answered {r r' : Except Err Answer} (ho : Open h)
    (hm : .answer r' ∈ h ++ [.answer r]) : r' = r := by
  rcases mem_snoc.mp hm with hm | hm
  · exact absurd hm (ho r')
  · cases hm
    rfl

/-- **The answer** of the run: every account that was selected is done, or the database has
failed. -/
theorem Onward.answers {β : Type} {r : Except Err β} {r' : Except Err Answer}
    (hr : e.Onward [] r h s) (hok : ∀ ans, r' = .ok ans → ∃ b, r = .ok b)
    (herr : ∀ err, r' = .error err → r = .error err) : Answers e.expiring r' h s := by
  obtain ⟨t, hat⟩ : ∃ t, e.At t h s := by
    cases r with
    | ok b => exact ⟨_, hr.choose_spec⟩
    | error err => exact hr.2
  intro s' _
  refine ⟨fun hm => ?_, fun hm => ?_, fun hm => ?_⟩
  · rcases mem_snoc.mp hm with hm | hm
    · exact hat.lawful.debits hm
    · cases hm
  · rw [herr _ (mem_answered hat.running hm).symm] at hr
    exact hr.1
  · obtain ⟨b, rfl⟩ := hok _ (mem_answered hat.running hm).symm
    obtain ⟨seen, hat⟩ := hr
    obtain ⟨a0, ha0, -, hall⟩ := hat.covered
    refine ⟨a0, ?_, fun x hx => ?_⟩
    · rw [scanOf_snoc, ha0]
      rfl
    · rcases hall x hx with hleft | hdone
      · cases hleft
      · exact hdone.snoc _

theorem at_start : e.At .scan [.start] s where
  turn := rfl
  running r hm := by simp at hm
  lawful := ⟨fun hm => by simp at hm, fun hm => by simp at hm, fun hm => by simp at hm⟩
  fits := trivial
  covered := rfl

theorem lawful_nil : e.Lawful [] where
  debits hm := absurd hm List.not_mem_nil
  failures hm := absurd hm List.not_mem_nil
  complete hm := absurd hm List.not_mem_nil

def protocols (e : ExpiryRun) : ℕ → Protocol Db Err Ev Answer anyStep
  | 0 => e.expiring
  | _ => bookProtocol fun _ _ => True

theorem call_safe : Safe e.expiring (e.call.bind fun n => Call.pure (.expired n)) db :=
  ⟨lawful_nil, fun s' _ _ => ⟨(at_start (s := s')).lawful, by
    refine Call.wp_bind (Call.wp_mono (fun r h s hr => ?_) (wp_call (s := s') at_start))
    cases r with
    | ok n => exact hr.answers (fun _ _ => ⟨n, rfl⟩) fun _ he => by cases he
    | error err => exact hr.answers (fun _ he => by cases he) fun _ he => by cases he; rfl⟩⟩

/-- **Point expiry.** In every run of `expireInactivePoints` beside any other requests of the
services in which the accounts at hand are ready at each of its steps, it has done what is
lawful. -/
theorem reach_expiry (hdb : WellKept db) (h : Reach e.Undisturbed (e.start db reqs) c) :
    e.Lawful (c.histOf 0) := by
  show (e.protocols 0).keeps (c.histOf 0) c.db
  refine reach_keeps (fun i call hi => ?_) (fun d i hd hp _ => ?_) h (Nat.zero_lt_succ _)
  · cases i with
    | zero =>
      cases hi
      exact call_safe
    | succ i =>
      rw [List.getElem?_cons_succ, List.getElem?_map] at hi
      cases hr : reqs[i]? with
      | none => simp [hr] at hi
      | some req =>
        rw [hr] at hi
        cases hi
        exact Request.safe policy_true (allowed_true req) db
  · cases i with
    | zero => exact hp rfl
    | succ i => exact hd.rel.wellKept hdb

end

end ExpiryRun

def firstEarn : LoyaltyPointLedger where
  orgId := 1
  accountId := 20
  type := .earn
  points := 100
  balanceAfter := 100
  sourceType := some "ticket"
  sourceId := some "t-1"
  description := none
  createdAt := 0

def holdsPoints : LoyaltyAccount :=
  { orgId := 1, customerId := 10, tierId := none, pointsBalance := 100, lifetimePointsEarned := 100
    referralCode := "AAAA2222" }

def unmoved : Db :=
  ((Rel.empty.set .program 1 { orgId := 1 }).set .customer 10 { orgId := 1, name := "Ada" }).set
    .account 20 holdsPoints

/-- An organisation whose patron has not been seen since. -/
def dormant : Db := unmoved.push firstEarn

theorem dormant_wellKept : WellKept dormant := by
  have hu : WellKept unmoved :=
    ((wellKept_empty.insert (by decide) (by decide +kernel) (by decide +kernel)).insert
      (by decide) (by decide +kernel) (by decide +kernel)).insert
      (by decide) (by decide +kernel) (by decide +kernel)
  have hp : Rel.Pushed firstEarn unmoved dormant := ⟨fun _ _ => rfl, rfl⟩
  exact hu.of_grows (grows_of_pushed hp) (hp.unique hu.unique) fun id => hp.get .referral id

def thirdDay : ExpiryRun := ⟨1, 1, 2 * daySeconds, [(20, holdsPoints)]⟩

def visit : Request := .applyPoints 1 20 10 .earn { sourceType := "ticket", sourceId := "t-2" }

/-- What she loses of the hundred and ten points she then has. -/
def lostPoints : LoyaltyPointLedger where
  orgId := 1
  accountId := 20
  type := .expire
  points := -100
  balanceAfter := 10
  sourceType := some "expiry"
  sourceId := none
  description := some "Points expired after 1 days of inactivity"
  createdAt := 1

def loses : Entry Db Err Ev Answer → Bool
  | .commit a b => decide (b.log = a.log ++ [lostPoints]) && thirdDay.active 20 a
  | _ => false

/-- The visit is between the run's look at Ada's last activity and its debit. -/
def visitDuringExpiry : List (ℕ × Move Err) :=
  List.replicate 8 (0, .go 1) ++ List.replicate 21 (1, .go (2 * daySeconds)) ++
    List.replicate 16 (0, .go 1)

set_option maxRecDepth 100000 in
/-- **An active account is expired**, and not by its balance. -/
theorem expires_active : ∃ (c : Run) (a b : Db), Reach Always (thirdDay.start dormant [visit]) c ∧
    .commit a b ∈ c.histOf 0 ∧ b.log = a.log ++ [lostPoints] ∧ thirdDay.active 20 a = true ∧
    ¬ thirdDay.Lawful (c.histOf 0) := by
  obtain ⟨c, hc, hp⟩ := exists_reach_anywhere
    (thirdDay.start dormant [visit]) visitDuringExpiry (fun c => (c.histOf 0).any loses)
    (by decide +kernel)
  obtain ⟨en, hm, hen⟩ := List.any_eq_true.mp hp
  cases en with
  | commit a b =>
    obtain ⟨hlog, hactive⟩ := Bool.and_eq_true_iff.mp hen
    have hlog : b.log = a.log ++ [lostPoints] := of_decide_eq_true hlog
    refine ⟨c, a, b, hc, hm, hlog, hactive, fun hl => ?_⟩
    obtain ⟨l, hmem, hlt⟩ := List.any_eq_true.mp hactive
    rcases hl.debits hm with rfl | ⟨x, r, l', -, hlog', -, rfl, -, -, hall⟩
    · simp at hlog
    · rw [hlog] at hlog'
      cases List.singleton_inj.mp (List.append_cancel_left hlog')
      exact absurd (of_decide_eq_true hlt) (lt_asymm (hall l hmem))
  | start => cases hen
  | rollback err => cases hen
  | emit v => cases hen
  | answer r => cases hen

def expiredOne : Entry Db Err Ev Answer → Bool
  | .answer (.ok (.expired n)) => n == 1
  | _ => false

def visitAfterDebit : List (ℕ × Move Err) :=
  List.replicate 23 (0, .go 1) ++ List.replicate 21 (1, .go (2 * daySeconds)) ++ [(0, .go 1)]

set_option maxRecDepth 100000 in
theorem reach_expiry_visitAfterDebit : ∃ c : Run,
    Reach thirdDay.Undisturbed (thirdDay.start dormant [visit]) c ∧
      (c.histOf 0).any expiredOne = true ∧ thirdDay.Lawful (c.histOf 0) := by
  obtain ⟨c, hc, hp⟩ := exists_reach (o := fun c i => decide (thirdDay.Undisturbed c i))
    (P := thirdDay.Undisturbed) (fun _ _ h => of_decide_eq_true h) (thirdDay.start dormant [visit])
    visitAfterDebit (fun c => (c.histOf 0).any expiredOne) (by decide +kernel)
  exact ⟨c, hc, hp, ExpiryRun.reach_expiry dormant_wellKept hc⟩

end PatronLoyalty.Loyalty
