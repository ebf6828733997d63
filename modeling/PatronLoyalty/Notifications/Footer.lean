import PatronLoyalty.Notifications.Rendering

/-!
# The footer of a text message

`decorateTransactionalSmsBody` adds to a transactional text message how to stop, unless it has one of the
phrases of an older footer. The service decorates the body of a request, and the worker what it sends: the
rendered template, or the body.

Results:
* `decorate_decorate`: decorating twice is decorating once.
* `handed_eq`: what is handed to the provider is the decorated content.
* **`tellsHowToStop_iff`**: it tells how to stop, and once where the request did not, exactly where the
  content has no older phrase or tells itself, and has not been told twice by the variables.
-/

namespace PatronLoyalty.Footer

open Formats (Units units trimText Trimmed trimmed_trimText trimText_of_trimmed)
open Formats.Replacement
open Rendering

/-! ## The footer -/

/-- The small letters, outside ASCII, whose capitals are in it. -/
def capitals : List (UInt16 × Units) :=
  [(0xDF, units "SS"), (0x131, units "I"), (0x17F, units "S"), (0x149, 0x2BC :: units "N"),
    (0x1F0, units "J" ++ [0x30C]), (0x1E96, units "H" ++ [0x331]), (0x1E97, units "T" ++ [0x308]),
    (0x1E98, units "W" ++ [0x30A]), (0x1E99, units "Y" ++ [0x30A]), (0x1E9A, units "A" ++ [0x2BE]),
    (0xFB00, units "FF"), (0xFB01, units "FI"), (0xFB02, units "FL"), (0xFB03, units "FFI"),
    (0xFB04, units "FFL"), (0xFB05, units "ST"), (0xFB06, units "ST")]

/-- The other letters stay, as their capitals are not in ASCII either. -/
def upperUnit (c : UInt16) : Units :=
  if 97 ≤ c ∧ c ≤ 122 then [c - 32] else (capitals.lookup c).getD [c]

/-- `s.toUpperCase()`, as far as the phrases go. -/
def toUpperCase (s : Units) : Units := s.flatMap upperUnit

def includes (s phrase : Units) : Bool := 0 < occurrences phrase s

def legacyPhrases : List String :=
  ["REPLY STOP", "MSG&DATA RATES", "QUEUEPLATFORM ALERTS", "ALERTS VIA QUEUEPLATFORM",
    "QPLATFORM ALERTS", "ALERTS VIA QPLATFORM", "QLESSQ ALERTS", "ALERTS VIA QLESSQ",
    "QLEESQ ALERTS", "ALERTS VIA QLEESQ"]

def hasLegacySmsComplianceSuffix (body : Units) : Bool :=
  legacyPhrases.any fun phrase => includes (toUpperCase body) (units phrase)

def txnSmsComplianceFooter (_organizationName : Units) : Units := units " Reply STOP to cancel."

def decorateTransactionalSmsBody (body organizationName : Units) : Units :=
  let normalizedBody := trimText body
  if normalizedBody = [] then normalizedBody
  else if hasLegacySmsComplianceSuffix normalizedBody then normalizedBody
  else normalizedBody ++ txnSmsComplianceFooter organizationName

/-! ## The service and the worker -/

/-- What a transactional text message is requested with. -/
structure Sms where
  subject : Option Units := none
  body : Option Units := none
  vars : List (Units × Units) := []
  deriving DecidableEq

/-- `NotificationService.send`: the job of a transactional text message. -/
def enqueued (organizationName : Units) (data : Sms) : Job where
  sms := true
  subject := data.subject
  body := decorateIfAny data.body
  vars := data.vars
  applyTransactionalSmsFooter := true
  organizationNameForSms := some organizationName
where
  /-- An empty body is no body. -/
  decorateIfAny : Option Units → Option Units
    | some (c :: body) => some (decorateTransactionalSmsBody (c :: body) organizationName)
    | body => body

def blank (s : Option Units) : Bool := trimText (s.getD []) = []

/-- **What the worker hands to the provider**, unless the rendering fails. -/
def handed (engine : Engine) (job : Job) (template : Option NotificationTemplate) : Option Units :=
  (rendered engine job template).map fun r =>
    let finalBody := (if blank r.1 then job.body else r.1).getD []
    if job.sms && job.applyTransactionalSmsFooter && !finalBody.isEmpty then
      decorateTransactionalSmsBody finalBody
        (if (job.organizationNameForSms.getD []).isEmpty then units "Your organization"
          else job.organizationNameForSms.getD [])
    else finalBody

/-- The content of a message: the rendered template, or the body of the request. -/
def contentOf (engine : Engine) (data : Sms) : Option NotificationTemplate → Option Units
  | some template =>
    if trimText template.body = [] then some (data.body.getD [])
    else (render engine data.vars template.body (template.subject.or data.subject)).map fun r =>
      if trimText r.1 = [] then data.body.getD [] else r.1
  | none => some (data.body.getD [])

/-! ## How often a text tells how to stop -/

def replyStop : Units := units "REPLY STOP"

/-- How often the text says to reply STOP, in capitals or not. -/
def stops (s : Units) : ℕ := occurrences replyStop (toUpperCase s)

variable {body name n : Units}

theorem toUpperCase_append (s t : Units) : toUpperCase (s ++ t) = toUpperCase s ++ toUpperCase t :=
  List.flatMap_append

theorem stops_footer (name : Units) : stops (txnSmsComplianceFooter name) = 1 := by
  show stops (units " Reply STOP to cancel.") = 1
  decide

/-- **The footer adds one.** -/
theorem stops_append_footer (s name : Units) :
    stops (s ++ txnSmsComplianceFooter name) = stops s + 1 := by
  have hapart : ∀ e ∈ replyStop.tails, e ≠ [] → e ≠ replyStop →
      ¬ e <+: toUpperCase (txnSmsComplianceFooter name) := by
    show ∀ e ∈ replyStop.tails, e ≠ [] → e ≠ replyStop →
      ¬ e <+: toUpperCase (units " Reply STOP to cancel.")
    decide
  have hone := stops_footer name
  unfold stops at hone ⊢
  rw [toUpperCase_append, occurrences_append hapart, hone]

theorem legacy_of_stops (h : 0 < stops body) : hasLegacySmsComplianceSuffix body = true :=
  List.any_eq_true.mpr ⟨"REPLY STOP", List.mem_cons_self, decide_eq_true h⟩

theorem decorate_blank (h : trimText body = []) : decorateTransactionalSmsBody body name = [] := by
  simp [decorateTransactionalSmsBody, h]

theorem decorate_legacy (h : hasLegacySmsComplianceSuffix (trimText body) = true) :
    decorateTransactionalSmsBody body name = trimText body := by
  unfold decorateTransactionalSmsBody
  dsimp only
  rw [if_pos h, ite_self]

theorem decorate_plain (hb : trimText body ≠ [])
    (h : hasLegacySmsComplianceSuffix (trimText body) = false) :
    decorateTransactionalSmsBody body name = trimText body ++ txnSmsComplianceFooter name := by
  unfold decorateTransactionalSmsBody
  dsimp only
  rw [if_neg hb, if_neg (by rw [h]; exact Bool.false_ne_true)]

/-- What is decorated has no white space at its ends. -/
theorem trimmed_footer (hn : n ≠ []) (h : Trimmed n) (name : Units) :
    Trimmed (n ++ txnSmsComplianceFooter name) := by
  constructor
  · intro c hc
    refine h.1 c ?_
    cases n with
    | nil => exact absurd rfl hn
    | cons d n => exact hc
  · intro c hc
    have hlast : (units " Reply STOP to cancel.").getLast? = some 46 := by decide
    rw [txnSmsComplianceFooter, List.getLast?_append, hlast, Option.some_or] at hc
    cases hc
    decide

/-- **Decorating twice is decorating once.** -/
theorem decorate_decorate (body name name' : Units) :
    decorateTransactionalSmsBody (decorateTransactionalSmsBody body name) name' =
      decorateTransactionalSmsBody body name := by
  by_cases hb : trimText body = []
  · rw [decorate_blank hb]
    rfl
  · cases hl : hasLegacySmsComplianceSuffix (trimText body) with
    | true =>
      have htrim := Formats.trimText_trimText body
      rw [decorate_legacy hl, decorate_legacy (by rw [htrim, hl]), htrim]
    | false =>
      have htrim := trimText_of_trimmed (trimmed_footer hb (trimmed_trimText body) name)
      have hstops : 0 < stops (trimText body ++ txnSmsComplianceFooter name) := by
        rw [stops_append_footer]
        exact Nat.succ_pos _
      rw [decorate_plain hb hl, decorate_legacy (by rw [htrim]; exact legacy_of_stops hstops), htrim]

/-! ## What is handed to the provider -/

variable {engine : Engine} {data : Sms} {template : Option NotificationTemplate}

theorem decorateIfAny_getD (name : Units) (body : Option Units) :
    (enqueued.decorateIfAny name body).getD [] = decorateTransactionalSmsBody (body.getD []) name := by
  cases body with
  | none => rfl
  | some body => cases body <;> rfl

/-- The last step of the worker. -/
theorem decorate_of_ne {b name' : Units} :
    (if (!b.isEmpty) = true then decorateTransactionalSmsBody b name' else b) =
      decorateTransactionalSmsBody b name' := by
  cases b <;> rfl

/-- **What is handed to the provider** is the decorated content. -/
theorem handed_eq (engine : Engine) (name : Units) (data : Sms) (template : Option NotificationTemplate) :
    handed engine (enqueued name data) template =
      (contentOf engine data template).map (decorateTransactionalSmsBody · name) := by
  have hbody : ∀ name', decorateTransactionalSmsBody ((enqueued.decorateIfAny name data.body).getD [])
      name' = decorateTransactionalSmsBody (data.body.getD []) name := by
    intro name'
    rw [decorateIfAny_getD, decorate_decorate]
  have hjob : ∀ b : Bool, (if b = true then (enqueued name data).body else (enqueued name data).body) =
      enqueued.decorateIfAny name data.body := fun b => ite_self _
  unfold handed
  cases template with
  | none =>
    simp only [rendered, contentOf, Option.map_some, hjob]
    exact congrArg some (decorate_of_ne.trans (hbody _))
  | some template =>
    simp only [rendered, contentOf]
    by_cases hb : trimText template.body = []
    · simp only [if_pos hb, Option.map_some, hjob]
      exact congrArg some (decorate_of_ne.trans (hbody _))
    · simp only [if_neg hb, Option.map_map]
      show (render engine data.vars template.body (template.subject.or data.subject)).map _ = _
      refine congrArg (Option.map · _) (funext fun r => decorate_of_ne.trans ?_)
      show decorateTransactionalSmsBody
          ((if blank (some r.1) then enqueued.decorateIfAny name data.body else some r.1).getD []) _ =
        decorateTransactionalSmsBody (if trimText r.1 = [] then data.body.getD [] else r.1) name
      by_cases hr : trimText r.1 = []
      · rw [if_pos (show blank (some r.1) = true from decide_eq_true hr), if_pos hr]
        exact hbody _
      · rw [if_neg (show ¬ blank (some r.1) = true from fun h => hr (of_decide_eq_true h)), if_neg hr]
        rfl

/-! ## Telling how to stop -/

theorem trimText_decorate_eq_nil :
    trimText (decorateTransactionalSmsBody body name) = [] ↔ trimText body = [] := by
  by_cases hb : trimText body = []
  · rw [decorate_blank hb]
    exact iff_of_true rfl hb
  · cases hl : hasLegacySmsComplianceSuffix (trimText body) with
    | true => rw [decorate_legacy hl, Formats.trimText_trimText]
    | false =>
      have htrim := trimText_of_trimmed (trimmed_footer hb (trimmed_trimText body) name)
      rw [decorate_plain hb hl, htrim]
      exact iff_of_false (fun h => hb (List.append_eq_nil_iff.mp h).1) hb

/-- **A decorated text tells how to stop** where it has no older phrase, or tells itself. -/
theorem stops_decorate_pos (hb : trimText body ≠ []) :
    0 < stops (decorateTransactionalSmsBody body name) ↔
      (hasLegacySmsComplianceSuffix (trimText body) = true → 0 < stops (trimText body)) := by
  cases hl : hasLegacySmsComplianceSuffix (trimText body) with
  | true => rw [decorate_legacy hl, imp_iff_right rfl]
  | false =>
    rw [decorate_plain hb hl, stops_append_footer]
    exact iff_of_true (Nat.succ_pos _) (fun h => absurd h Bool.false_ne_true)

/-- **It tells once** where it also does not tell twice itself. -/
theorem stops_decorate_eq_one (hb : trimText body ≠ []) :
    stops (decorateTransactionalSmsBody body name) = 1 ↔
      (hasLegacySmsComplianceSuffix (trimText body) = true → 0 < stops (trimText body)) ∧
        stops (trimText body) ≤ 1 := by
  cases hl : hasLegacySmsComplianceSuffix (trimText body) with
  | true =>
    rw [decorate_legacy hl, imp_iff_right rfl]
    omega
  | false =>
    have hno : stops (trimText body) = 0 := by
      refine Nat.eq_zero_of_not_pos fun h => ?_
      rw [legacy_of_stops h] at hl
      cases hl
    rw [decorate_plain hb hl, stops_append_footer, hno]
    exact iff_of_true rfl ⟨fun h => absurd h Bool.false_ne_true, Nat.zero_le _⟩

/-- Neither the body nor the template tells. -/
def Silent (data : Sms) (template : Option NotificationTemplate) : Prop :=
  stops (data.body.getD []) = 0 ∧ ∀ t, template = some t → stops t.body = 0

/-- **Every message tells how to stop**, and once where neither the body nor the template tells, exactly
where its content, if it has an older phrase, tells itself, and the variables do not make a silent one
tell twice. Decorating is idempotent. -/
theorem tellsHowToStop_iff (engine : Engine) (organizationName : Units) (data : Sms)
    (template : Option NotificationTemplate) :
    ((∀ text, handed engine (enqueued organizationName data) template = some text → trimText text ≠ [] →
        0 < stops text ∧ (Silent data template → stops text = 1)) ↔
      ∀ content, contentOf engine data template = some content → trimText content ≠ [] →
        (hasLegacySmsComplianceSuffix (trimText content) = true → 0 < stops (trimText content)) ∧
          (Silent data template → stops (trimText content) ≤ 1)) ∧
    ∀ body name name', decorateTransactionalSmsBody (decorateTransactionalSmsBody body name) name' =
      decorateTransactionalSmsBody body name := by
  refine ⟨?_, decorate_decorate⟩
  rw [handed_eq]
  have hone : ∀ content, trimText content ≠ [] →
      ((0 < stops (decorateTransactionalSmsBody content organizationName) ∧
          (Silent data template →
            stops (decorateTransactionalSmsBody content organizationName) = 1)) ↔
        (hasLegacySmsComplianceSuffix (trimText content) = true → 0 < stops (trimText content)) ∧
          (Silent data template → stops (trimText content) ≤ 1)) := by
    intro content hc
    rw [stops_decorate_pos hc, stops_decorate_eq_one hc]
    exact and_congr_right fun h => imp_congr_right fun _ => and_iff_right h
  constructor
  · intro h content hcontent hc
    rw [hcontent] at h
    exact (hone content hc).mp (h _ rfl (mt trimText_decorate_eq_nil.mp hc))
  · intro h text htext ht
    rw [Option.map_eq_some_iff] at htext
    obtain ⟨content, hcontent, rfl⟩ := htext
    have hc := mt trimText_decorate_eq_nil.mpr ht
    exact (hone content hc).mpr (h content hcontent hc)

/-- **A text with an older phrase** goes out without a word on how to stop. -/
theorem exists_silent : (∀ (engine : Engine) (organizationName : Units),
      handed engine (enqueued organizationName { body := some (units "Msg&data rates may apply.") })
        none = some (units "Msg&data rates may apply.")) ∧
    stops (units "Msg&data rates may apply.") = 0 ∧
    ¬ ∃ (engine : Engine) (organizationName : Units),
      ∀ (data : Sms) (template : Option NotificationTemplate) (text : Units),
        handed engine (enqueued organizationName data) template = some text → trimText text ≠ [] →
          0 < stops text := by
  have hstops : stops (units "Msg&data rates may apply.") = 0 := by decide
  have hhanded (engine : Engine) (organizationName : Units) : handed engine
      (enqueued organizationName { body := some (units "Msg&data rates may apply.") }) none =
      some (units "Msg&data rates may apply.") := by
    have hlegacy : hasLegacySmsComplianceSuffix
        (trimText (units "Msg&data rates may apply.")) = true := by decide
    rw [handed_eq]
    show some (decorateTransactionalSmsBody (units "Msg&data rates may apply.") _) = _
    rw [decorate_legacy hlegacy]
    decide
  refine ⟨hhanded, hstops, ?_⟩
  rintro ⟨engine, organizationName, h⟩
  have hno := h _ none _ (hhanded engine organizationName) (by decide)
  rw [hstops] at hno
  exact absurd hno (Nat.lt_irrefl 0)

end PatronLoyalty.Footer
