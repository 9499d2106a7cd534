import HttpCatch.Capture.BodyCap
import HttpCatch.Config.Load
import HttpCatch.Sinks.Sweeper

/-!
# What the settings are good for

`internal/app/app.go` hands settings that `Validate` has checked to the parts that work by them:
the body cap to the capture handler and the Events API, the retention bounds to the sweeper that
`Serve` starts. `Validate` gives no upper bounds, and both parts compute with 64 bits.

* `capBody_of_validated` — every body cap but the greatest is exact.
* `sweep_of_validated` — a sweep deletes what the policy says unless the oldest time to keep is out
  of range. With a clock between 1970 and 2262 it never is (`sweep_of_clock`).
-/

namespace HttpCatch.App

open HttpCatch.Go HttpCatch.Sql HttpCatch.Capture HttpCatch.Sinks HttpCatch.Config

/-! ### The body cap -/

/-- **The body cap is exact for a validated configuration**, unless it is the greatest `int64` and
there is a body to keep. -/
theorem capBody_of_validated {rt : Runtime} {c : Config} (hc : validate rt c = [])
    (h64 : c.bodyCap < 2 ^ 63) (body : GoString) :
    capBody ⟨body, none⟩ c.bodyCap = .ok (capped body c.bodyCap) ↔
      c.bodyCap < 2 ^ 63 - 1 ∨ body = [] :=
  capBody_capped_iff body (validate_eq_nil.mp hc).bodyCap h64

theorem capBody_of_defaults :
    validate bare (defaults bare) = [] ∧ (defaults bare).bodyCap < 2 ^ 63 ∧
      capBody ⟨str "ok", none⟩ (defaults bare).bodyCap =
        .ok (capped (str "ok") (defaults bare).bodyCap) := by
  have hvalid : validate bare (defaults bare) = [] := rfl
  have h64 : (defaults bare).bodyCap < 2 ^ 63 := by decide
  refine ⟨hvalid, h64, (capBody_of_validated hvalid h64 (str "ok")).mpr (.inl ?_)⟩
  decide

/-- With the greatest cap a body of one byte is stored as an empty one, marked complete. -/
theorem capBody_greatest :
    validate bare { defaults bare with bodyCap := 2 ^ 63 - 1 } = [] ∧
      capBody ⟨str "x", none⟩ (2 ^ 63 - 1) = .ok ([], 0, false) ∧
      capBody ⟨str "x", none⟩ (2 ^ 63 - 1) ≠ .ok (capped (str "x") (2 ^ 63 - 1)) := by
  refine ⟨rfl, capBody_max _, ?_⟩
  rw [capBody_max]
  decide

/-! ### Retention -/

/-- The policy of the sweeper that `Serve` starts, where it starts one. -/
def sweeperPolicy (c : Config) : Option SweeperPolicy :=
  let ret := c.sinks.retention
  if c.sinks.sqlite ∧ (0 < ret.maxAge ∨ 0 < ret.maxCount) then some ⟨ret.maxAge, ret.maxCount⟩
  else none

/-- A sweeper works by exactly one of the two bounds. -/
theorem sweeperPolicy_one {c : Config} (hc : Valid c) {pol : SweeperPolicy}
    (hpol : sweeperPolicy c = some pol) :
    0 ≤ pol.maxAge ∧ 0 ≤ pol.maxCount ∧ (0 < pol.maxAge ↔ ¬ 0 < pol.maxCount) := by
  unfold sweeperPolicy at hpol
  dsimp only at hpol
  split_ifs at hpol with hactive
  obtain rfl := Option.some.inj hpol
  have hexclusive := hc.exclusive
  obtain ⟨hage, hcount, -⟩ := hc.retention
  dsimp only
  omega

/-- **A sweep under a validated configuration does what its policy says**, unless the oldest time
to keep is out of the range of an `int64` and some row lies between it and what it wraps to. -/
theorem sweep_of_validated {rt : Runtime} {c : Config} (hc : validate rt c = [])
    {pol : SweeperPolicy} (hpol : sweeperPolicy c = some pol) {t : Tables} (ht : t.InSchema)
    (now : ℤ) :
    Sweeps pol now t ↔ pol.maxAge = 0 ∨
      ∀ row ∈ t.capturedRequests ++ t.events, Exact (now - pol.maxAge) row := by
  obtain ⟨hage, hcount, hone⟩ := sweeperPolicy_one (validate_eq_nil.mp hc) hpol
  exact sweeps_iff ht hage hcount hone

/-- With a clock between 1970 and 2262 every sweep does what its policy says. -/
theorem sweep_of_clock {c : Config} (hc : Valid c) {pol : SweeperPolicy}
    (hpol : sweeperPolicy c = some pol) (h64 : pol.maxAge < 2 ^ 63) {t : Tables}
    (ht : t.InSchema) {now : ℤ} (h₀ : 0 ≤ now) (h₁ : now < 2 ^ 63) : Sweeps pol now t := by
  obtain ⟨hage, hcount, hone⟩ := sweeperPolicy_one hc hpol
  refine (sweeps_iff ht hage hcount hone).mpr (.inr fun row _ => .inl ?_)
  rw [Representable]
  omega

/-- A configuration that keeps records for a given age. -/
def keepFor (maxAge : ℤ) : Config :=
  { defaults bare with sinks := ⟨false, false, 1000, true, str "./httpcatch.db", ⟨maxAge, 0, 0⟩⟩ }

/-- A table with one captured request. -/
def oneRequest (timestamp : ℤ) : Tables := stored [.request (.blank (str "1") timestamp [])]

theorem inSchema_oneRequest (timestamp : ℤ) : (oneRequest timestamp).InSchema := by
  apply inSchema_stored
  refine ⟨?_, List.pairwise_singleton _ _⟩
  intro r hr
  obtain rfl := Record.request.inj (List.mem_singleton.mp hr)
  exact Option.some_ne_none _

theorem sweep_of_one_day :
    validate bare (keepFor (seconds 86400)) = [] ∧
      Sweeps ⟨seconds 86400, 0⟩ (seconds 1700000000) (oneRequest (seconds 1600000000)) := by
  have hvalid : validate bare (keepFor (seconds 86400)) = [] := rfl
  refine ⟨hvalid, (sweep_of_validated hvalid rfl (inSchema_oneRequest _) _).mpr (.inr ?_)⟩
  intro row _
  left
  decide

/-- Two nanoseconds before 1970, the greatest age makes the cutoff wrap: a record of the same
moment is deleted, which is to be kept for 292 years. -/
theorem sweep_wraps :
    validate bare (keepFor (2 ^ 63 - 1)) = [] ∧
      sweeperPolicy (keepFor (2 ^ 63 - 1)) = some ⟨2 ^ 63 - 1, 0⟩ ∧ (oneRequest (-2)).InSchema ∧
      sweep (fun _ rows => rows) .none (-2) ⟨2 ^ 63 - 1, 0⟩ (oneRequest (-2)) =
        (⟨[], []⟩, 1, none) ∧
      ¬ Sweeps ⟨2 ^ 63 - 1, 0⟩ (-2) (oneRequest (-2)) := by
  refine ⟨rfl, rfl, inSchema_oneRequest _, rfl, ?_⟩
  rw [sweeps_iff (inSchema_oneRequest _) (by decide) (by decide) (by decide)]
  rintro (hzero | hexact)
  · exact absurd hzero (by decide)
  · exact absurd (hexact _ (List.mem_cons_self)) (by decide)

end HttpCatch.App
