/-
What the fingerprint of an opening tells apart: every two openings that
differ in how a field is written, so in particular those that are not
equal. Equal ones it takes for different where a datetime is written with
another offset.
-/
import PatentEvidence.Platform.Organizations

namespace PatentEvidence.Platform

namespace OrganizationOpening

variable {a b : OrganizationOpening}

/-- The datetimes have the same offsets. -/
structure WrittenAlike (a b : OrganizationOpening) : Prop where
  start : a.currentPeriodStart.offset = b.currentPeriodStart.offset
  stop : a.currentPeriodEnd.offset = b.currentPeriodEnd.offset
  expires :
    a.expiresAt.map AwareDatetime.offset = b.expiresAt.map AwareDatetime.offset

theorem Equal.refl (a : OrganizationOpening) : Equal a a :=
  ⟨rfl, rfl, rfl, rfl, rfl, rfl, rfl, rfl⟩

/-- Equal openings written alike are one opening. -/
theorem eq_of_writtenAlike (h : Equal a b) (halike : WrittenAlike a b) :
    a = b := by
  have hstart := AwareDatetime.eq_of_timestamp_eq h.start halike.start
  have hstop := AwareDatetime.eq_of_timestamp_eq h.stop halike.stop
  have hexpires : a.expiresAt = b.expiresAt := by
    have htime := h.expires
    have hoffset := halike.expires
    cases ha : a.expiresAt with
    | none =>
        cases hb : b.expiresAt with
        | none => rfl
        | some t =>
            rw [ha, hb] at htime
            cases htime
    | some t =>
        cases hb : b.expiresAt with
        | none =>
            rw [ha, hb] at htime
            cases htime
        | some u =>
            rw [ha, hb] at htime hoffset
            rw [AwareDatetime.eq_of_timestamp_eq (Option.some.inj htime)
              (Option.some.inj hoffset)]
  obtain ⟨hslug, hname, hemail, hplan, hallowance, -, -, -⟩ := h
  cases a
  cases b
  simp_all

/-- The keys of the payload are distinct. -/
theorem nodup_payload (a : OrganizationOpening) :
    (a.payload.map Prod.fst).Nodup := by
  show ["slug", "display_name", "admin_email", "plan_key",
    "monthly_case_allowance", "current_period_start", "current_period_end",
    "expires_at"].Nodup
  decide

theorem canonical_injective : Function.Injective canonical := by
  intro a b h
  have hdumps : Json.flatDumps a.payload = Json.flatDumps b.payload :=
    String.ofList_injective h
  have hvalue (key : String) {v w : Json.Scalar Int}
      (hv : (key, v) ∈ a.payload) (hw : (key, w) ∈ b.payload) : v = w :=
    Json.value_eq_of_flatDumps hdumps b.nodup_payload hv hw
  have htext (key : String) {s t : String} (hv : (key, .str s) ∈ a.payload)
      (hw : (key, .str t) ∈ b.payload) : s = t :=
    Json.Scalar.str.inj (hvalue key hv hw)
  have hslug : a.slug = b.slug :=
    htext "slug" (by simp [payload]) (by simp [payload])
  have hname : a.displayName = b.displayName :=
    htext "display_name" (by simp [payload]) (by simp [payload])
  have hemail : a.adminEmail = b.adminEmail :=
    htext "admin_email" (by simp [payload]) (by simp [payload])
  have hplan : a.planKey = b.planKey :=
    htext "plan_key" (by simp [payload]) (by simp [payload])
  have hallowance : a.monthlyCaseAllowance = b.monthlyCaseAllowance :=
    Json.Scalar.num.inj (hvalue "monthly_case_allowance" (by simp [payload])
      (by simp [payload]))
  have hstart : a.currentPeriodStart = b.currentPeriodStart :=
    AwareDatetime.isoformat_injective
      (htext "current_period_start" (by simp [payload]) (by simp [payload]))
  have hstop : a.currentPeriodEnd = b.currentPeriodEnd :=
    AwareDatetime.isoformat_injective
      (htext "current_period_end" (by simp [payload]) (by simp [payload]))
  have hexpires : a.expiresAt = b.expiresAt := by
    cases ha : a.expiresAt with
    | none =>
        cases hb : b.expiresAt with
        | none => rfl
        | some u =>
            have hne : Json.Scalar.null = .str u.isoformat :=
              hvalue "expires_at" (by simp [payload, ha]) (by simp [payload, hb])
            cases hne
    | some t =>
        cases hb : b.expiresAt with
        | none =>
            have hne : Json.Scalar.str t.isoformat = .null :=
              hvalue "expires_at" (by simp [payload, ha]) (by simp [payload, hb])
            cases hne
        | some u =>
            have hsame : t.isoformat = u.isoformat :=
              htext "expires_at" (by simp [payload, ha]) (by simp [payload, hb])
            rw [AwareDatetime.isoformat_injective hsame]
  cases a
  cases b
  simp_all

end OrganizationOpening

end PatentEvidence.Platform
