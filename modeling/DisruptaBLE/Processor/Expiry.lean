import DisruptaBLE.Processor.Reception
import DisruptaBLE.Processor.Runs
import DisruptaBLE.Epidemic.Unlimited

/-!
# Expiry

`bundle_get_expiration_time_s` rounds the creation timestamp and the lifetime to seconds, by
adding 500 to 64-bit numbers.  Its result is compared with the clock at the reception of a
bundle, in the bundle list of the router and before the list of known bundles is searched.

`no_premature_expiry_iff` says that none of the three takes a bundle for expired before its
time, if and only if neither addition wraps around.
-/

namespace BundleProcessor

open PtrHeap
open EpidemicRouter (RouterParams Router RouterReachable BundleInfo Listed updateBundleInfoList
  reachable_inv updateBundleInfoList_spec)

/-! ## The expiration time -/

/-- The end of a bundle in seconds, computed without overflow. -/
def exactExpiration (b : Bundle) : Nat :=
  (b.creationTimestampMs.toNat + b.lifetimeMs.toNat) / 1000

/-- Neither addition of `bundle_get_expiration_time_s` wraps around. -/
def RoundsUp (b : Bundle) : Prop :=
  b.creationTimestampMs.toNat + 500 < 2 ^ 64 ∧ b.lifetimeMs.toNat + 500 < 2 ^ 64

section Rounding

variable {b : Bundle}

/-- The expiration time of a bundle with a creation timestamp does not depend on the clock. -/
theorem toNat_expirationTimeS (hts : b.creationTimestampMs ≠ 0) (now : UInt64) :
    (bundleGetExpirationTimeS now b).toNat =
      (b.creationTimestampMs.toNat + 500) % 2 ^ 64 / 1000 +
        (b.lifetimeMs.toNat + 500) % 2 ^ 64 / 1000 := by
  have hround : ∀ x : UInt64, ((x + 500) / 1000).toNat = (x.toNat + 500) % 2 ^ 64 / 1000 := by
    intro x
    rw [UInt64.toNat_div, UInt64.toNat_add]
    rfl
  unfold bundleGetExpirationTimeS
  rw [if_pos hts, UInt64.toNat_add, hround, hround]
  omega

/-- Rounding does not shorten the time by a second. -/
theorem le_expirationTimeS (hts : b.creationTimestampMs ≠ 0) (hround : RoundsUp b)
    (now : UInt64) : exactExpiration b ≤ (bundleGetExpirationTimeS now b).toNat := by
  obtain ⟨hcreation, hlifetime⟩ := hround
  rw [toNat_expirationTimeS hts, Nat.mod_eq_of_lt hcreation, Nat.mod_eq_of_lt hlifetime]
  unfold exactExpiration
  omega

/-- Where an addition wraps around, the time is shortened by at least two seconds. -/
theorem expirationTimeS_lt (hts : b.creationTimestampMs ≠ 0) (hround : ¬ RoundsUp b)
    (now : UInt64) : (bundleGetExpirationTimeS now b).toNat + 1 < exactExpiration b := by
  have hcreation : b.creationTimestampMs.toNat < 2 ^ 64 := b.creationTimestampMs.toNat_lt
  have hlifetime : b.lifetimeMs.toNat < 2 ^ 64 := b.lifetimeMs.toNat_lt
  rw [toNat_expirationTimeS hts]
  unfold exactExpiration
  unfold RoundsUp at hround
  omega

end Rounding

/-! ## The consumers -/

/-- At this time, no component takes the bundle for expired. -/
structure NotPremature (P : RouterParams) (b : Bundle) (now : UInt64) : Prop where
  receive : ∀ env, env.now = now → expiredOnArrival env b = false ∧
    ∀ s a, receptionCourse env s a b ≠ .expired
  router : ∀ s a e later, RouterReachable P s → Listed s a → s.infos.cells a = some e →
    e.expTime = (bundleGetExpirationTimeS later b).toNat →
    ∃ s' out e', updateBundleInfoList s now.toNat = .ok (s', out) ∧ Listed s' a ∧
      s'.infos.cells a = some e' ∧ e'.id = e.id ∧ e'.svEntry = e.svEntry
  known : ∀ env s, env.now = now → (bundleRecordAddAndCheckKnown env s b).1 = true →
    ∃ e ∈ s.known, e.uniqueIdentifier = bundleGetUniqueIdentifier b

/-- The search of a known bundle finds an entry with its identifier. -/
theorem mem_of_addIfNotExists {now : UInt64} {mem : Option Nat} {b : Bundle}
    {l : List KnownEntry} (h : (addIfNotExists now mem b false l).1 = true) :
    ∃ e ∈ l, e.uniqueIdentifier = bundleGetUniqueIdentifier b := by
  induction l with
  | nil => cases h
  | cons x xs ih =>
      unfold addIfNotExists at h
      rw [Bool.false_and, if_neg Bool.false_ne_true, Bool.not_false, Bool.true_and] at h
      by_cases hequal : bundleIsEqual b x.uniqueIdentifier = true
      · exact ⟨x, List.mem_cons_self, (bundleIsEqual_iff b _).mp hequal⟩
      rw [if_neg hequal] at h
      split at h
      · cases h
      · obtain ⟨e, he, hid⟩ := ih h
        exact ⟨e, List.mem_cons_of_mem _ he, hid⟩

/-- An entry that is not before its time stays in the list of the router. -/
theorem updateBundleInfoList_keeps {P : RouterParams} {s : Router} {a : Addr} {e : BundleInfo}
    {now : Nat} (hreach : RouterReachable P s) (ha : Listed s a) (he : s.infos.cells a = some e)
    (htime : now ≤ e.expTime) :
    ∃ s' out e', updateBundleInfoList s now = .ok (s', out) ∧ Listed s' a ∧
      s'.infos.cells a = some e' ∧ e'.id = e.id ∧ e'.svEntry = e.svEntry := by
  obtain ⟨l, key, hinv⟩ := reachable_inv hreach
  obtain ⟨s', out, l', hrun, hlist, -, hexp, -⟩ :=
    updateBundleInfoList_spec now hinv.list hinv.cursors
  have hkept : a ∈ l' := by
    by_contra hgone
    have hlate := (hexp.removed a (hinv.mem_of_listed ha) hgone).1 e he
    omega
  obtain ⟨next, hnext⟩ := hexp.kept a hkept e he
  exact ⟨s', out, { e with next }, hrun, ⟨l', hlist.chain, hkept⟩, hnext, rfl, rfl⟩

/-- **No premature expiry.**  Up to a second before the end of a bundle with a creation timestamp,
its reception does not delete it, the router does not remove it, and it is known only if there is
an entry for it, if and only if neither its creation timestamp nor its lifetime is within 500
milliseconds of the largest number. -/
theorem no_premature_expiry_iff (P : RouterParams) (b : Bundle)
    (hts : b.creationTimestampMs ≠ 0) :
    (∀ now : UInt64, now.toNat + 1 ≤ exactExpiration b → NotPremature P b now) ↔ RoundsUp b := by
  constructor
  · intro h
    by_contra hround
    have hcreation : b.creationTimestampMs.toNat < 2 ^ 64 := b.creationTimestampMs.toNat_lt
    have hlifetime : b.lifetimeMs.toNat < 2 ^ 64 := b.lifetimeMs.toNat_lt
    let last := UInt64.ofNat (exactExpiration b - 1)
    have hsmall : exactExpiration b - 1 < 2 ^ 64 := by
      unfold exactExpiration
      omega
    have hlast : last.toNat = exactExpiration b - 1 := UInt64.toNat_ofNat_of_lt' hsmall
    have hshort := expirationTimeS_lt hts hround last
    have hexp := ((h last (by omega)).receive { calm with now := last } rfl).1
    have hlate : bundleGetExpirationTimeS last b < last := by
      rw [UInt64.lt_iff_toNat_lt]
      omega
    unfold expiredOnArrival at hexp
    rw [decide_eq_true hts, decide_eq_true hlate] at hexp
    cases hexp
  · intro hround now hnow
    have htime : ∀ later, now.toNat ≤ (bundleGetExpirationTimeS later b).toNat := by
      intro later
      have hle := le_expirationTimeS hts hround later
      omega
    have hearly : ∀ later, ¬ bundleGetExpirationTimeS later b < now := by
      intro later hlt
      exact absurd (UInt64.lt_iff_toNat_lt.mp hlt) (Nat.not_lt.mpr (htime later))
    constructor
    · rintro env rfl
      have hexp : expiredOnArrival env b = false := by
        unfold expiredOnArrival
        rw [decide_eq_false (hearly env.now), Bool.and_false]
      refine ⟨hexp, fun s a hcourse => ?_⟩
      unfold receptionCourse at hcourse
      rw [hexp, if_neg Bool.false_ne_true] at hcourse
      split at hcourse
      · cases hcourse
      · split at hcourse
        · split at hcourse
          · cases hcourse
          · split at hcourse
            · cases hcourse
            · cases hcourse
        · cases hcourse
    · intro s a e later hreach ha he hexp
      exact updateBundleInfoList_keeps hreach ha he (hexp ▸ htime later)
    · rintro env s rfl hknown
      unfold bundleRecordAddAndCheckKnown at hknown
      rw [if_neg (hearly env.now)] at hknown
      obtain ⟨e, he, hid⟩ := mem_of_addIfNotExists hknown
      exact ⟨e, (List.dropWhile_suffix _).subset he, hid⟩

/-- A bundle created one second after the epoch. -/
def timedNote (lifetimeMs : UInt64) : Bundle :=
  { note "dtn://a/x" [] with creationTimestampMs := 1000, lifetimeMs }

/-- A lifetime of one minute lasts until then. -/
theorem minute_not_premature :
    NotPremature EpidemicRouter.demoParams (timedNote 60000) 60 :=
  (no_premature_expiry_iff EpidemicRouter.demoParams (timedNote 60000) (by decide)).mpr
    ⟨by decide, by decide⟩ 60 (by decide)

/-- The largest lifetime ends the bundle at once. -/
theorem longest_lifetime_expired : ∃ now : UInt64,
    now.toNat + 1 ≤ exactExpiration (timedNote (-1)) ∧
      expiredOnArrival { calm with now } (timedNote (-1)) = true ∧
      ∀ P, ¬ NotPremature P (timedNote (-1)) now := by
  refine ⟨10, by decide, by decide, fun P hnot => ?_⟩
  exact absurd (hnot.receive calm rfl).1 (by decide)

end BundleProcessor
