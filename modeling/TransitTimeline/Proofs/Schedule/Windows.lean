import TransitTimeline.Proofs.Instant
import TransitTimeline.Proofs.Paired
import TransitTimeline.Proofs.ServiceTime
import TransitTimeline.Schedule.Skeleton

/-! The window of a pullout, from the earliest of its departures to the latest and by the tolerance beyond both. -/
namespace TransitTimeline

theorem Instant.plusLe {a b : Instant} {s t : Int} (le : a ≤ b) (later : s ≤ t) : a.plus s ≤ b.plus t := by
  have nanos : a.nanos ≤ b.nanos := le
  exact Int.add_le_add nanos later

def Departs (stops : List PulloutStop) (d : Instant) : Prop := ∃ t ∈ stops, t.departure = some d

theorem departsSorted {κ : Type} [Ord κ] (key : PulloutStop → κ) (stops : List PulloutStop) :
    Departs (sortOn key stops) = Departs stops := by
  funext d
  simp only [Departs, memSortOn]

namespace Window
variable {tolerance wider pullout : Int} {departs : Instant → Prop} {stops : List PulloutStop} {w x : Window}

structure Around (tolerance : Int) (departs : Instant → Prop) (w : Window) : Prop where
  start : ∃ first, departs first ∧ (∀ d, departs d → first ≤ d) ∧ w.start = first.plus (-tolerance)
  finish : ∃ last, departs last ∧ (∀ d, departs d → d ≤ last) ∧ w.finish = last.plus tolerance

theorem Around.other (around : w.Around tolerance departs) (wider : Int) : ∃ x, Around wider departs x := by
  obtain ⟨⟨first, departsFirst, least, _⟩, last, departsLast, greatest, _⟩ := around
  exact ⟨⟨first.plus (-wider), last.plus wider⟩, ⟨first, departsFirst, least, rfl⟩,
    ⟨last, departsLast, greatest, rfl⟩⟩

theorem Around.widens (around : w.Around tolerance departs) (outer : x.Around wider departs) (le : tolerance ≤ wider) :
    x.start ≤ w.start ∧ w.finish ≤ x.finish := by
  obtain ⟨⟨first, departsFirst, _, start⟩, last, departsLast, _, finish⟩ := around
  obtain ⟨⟨least, _, below, outerStart⟩, greatest, _, above, outerFinish⟩ := outer
  rw [start, finish, outerStart, outerFinish]
  constructor
  · exact Instant.plusLe (below first departsFirst) (Int.neg_le_neg le)
  · exact Instant.plusLe (above last departsLast) le

theorem Around.unique (around : w.Around tolerance departs) (other : x.Around tolerance departs) : w = x := by
  have inner := around.widens other (Int.le_refl tolerance)
  have outer := other.widens around (Int.le_refl tolerance)
  exact congrArg₂ Window.mk (Instant.leAntisymm outer.1 inner.1) (Instant.leAntisymm inner.2 outer.2)

def Holds (w : Window) (g : PlannedStop) : Prop := ∃ d ∈ g.departure, w.start ≤ d ∧ d ≤ w.finish

theorem holdsExactly {v : Visit} : w.holds v ↔ w.Holds v.stop := by
  cases known : v.stop.departure <;> simp [holds, Holds, known]

theorem memDepartures {d : Instant} : d ∈ stops.filterMap (·.departure) ↔ Departs stops d := List.mem_filterMap

theorem earliestExactly {first : Instant} : (stops.filterMap (·.departure)).min? = some first ↔
    Departs stops first ∧ ∀ d, Departs stops d → first ≤ d := by
  rw [List.min?_eq_some_iff]
  simp only [memDepartures]

theorem latestExactly {last : Instant} : (stops.filterMap (·.departure)).max? = some last ↔
    Departs stops last ∧ ∀ d, Departs stops d → d ≤ last := by
  rw [List.max?_eq_some_iff]
  simp only [memDepartures]

theorem aroundDepartures (tolerance : Int) {d : Instant} (known : Departs stops d) :
    ∃ w, Around tolerance (Departs stops) w := by
  have some : stops.filterMap (·.departure) ≠ [] := List.ne_nil_of_mem (memDepartures.mpr known)
  obtain ⟨first, earliest⟩ := Option.isSome_iff_exists.mp (List.isSome_min?_of_ne_nil some)
  obtain ⟨last, latest⟩ := Option.isSome_iff_exists.mp (List.isSome_max?_of_ne_nil some)
  obtain ⟨departs, least⟩ := earliestExactly.mp earliest
  obtain ⟨leaves, greatest⟩ := latestExactly.mp latest
  exact ⟨⟨first.plus (-tolerance), last.plus tolerance⟩, ⟨first, departs, least, rfl⟩,
    ⟨last, leaves, greatest, rfl⟩⟩

theorem ofPulloutTimeless (tolerance : Int) (trip : String) (pullout : Int) (none : ∀ d, ¬Departs stops d) :
    ofPullout tolerance trip pullout stops = .error (.emptyPullout trip pullout) := by
  have nothing : stops.filterMap (·.departure) = [] :=
    List.eq_nil_iff_forall_not_mem.mpr fun d member => none d (memDepartures.mp member)
  rw [ofPullout, nothing]
  rfl

theorem ofPulloutTimed (trip : String) (pullout : Int) (around : w.Around tolerance (Departs stops)) :
    ofPullout tolerance trip pullout stops = (ServiceTime.within w.start).bind fun start =>
      (ServiceTime.within w.finish).bind fun finish => .ok ⟨start, finish⟩ := by
  obtain ⟨⟨first, departs, least, start⟩, last, leaves, greatest, finish⟩ := around
  have earliest := earliestExactly.mpr ⟨departs, least⟩
  have latest := latestExactly.mpr ⟨leaves, greatest⟩
  rw [ofPullout, earliest, latest, start, finish]
  rfl

theorem ofPulloutInRange (trip : String) (pullout : Int) (around : w.Around tolerance (Departs stops))
    (start : w.start.InRange) (finish : w.finish.InRange) : ofPullout tolerance trip pullout stops = .ok w := by
  rw [ofPulloutTimed trip pullout around, ServiceTime.within, ServiceTime.within, if_pos start, if_pos finish]
  rfl

theorem ofPulloutReturns {trip : String} (ok : ofPullout tolerance trip pullout stops = .ok w) :
    w.Around tolerance (Departs stops) := by
  by_cases timed : ∃ d, Departs stops d
  · obtain ⟨d, known⟩ := timed
    obtain ⟨x, around⟩ := aroundDepartures tolerance known
    by_cases start : x.start.InRange
    · by_cases finish : x.finish.InRange
      · rw [ofPulloutInRange trip pullout around start finish] at ok
        cases ok
        exact around
      · rw [ofPulloutTimed trip pullout around, ServiceTime.within, ServiceTime.within, if_pos start, if_neg finish] at ok
        cases ok
    · rw [ofPulloutTimed trip pullout around, ServiceTime.within, if_neg start] at ok
      cases ok
  · rw [ofPulloutTimeless tolerance trip pullout fun d known => timed ⟨d, known⟩] at ok
    cases ok

theorem ofPulloutRanged {trip : String} (ok : ofPullout tolerance trip pullout stops = .ok w) :
    w.start.InRange ∧ w.finish.InRange := by
  have around := ofPulloutReturns ok
  rw [ofPulloutTimed trip pullout around] at ok
  obtain ⟨start, first, ok⟩ := okBind ok
  obtain ⟨finish, last, _⟩ := okBind ok
  constructor
  · by_contra out
    rw [ServiceTime.within, if_neg out] at first
    cases first
  · by_contra out
    rw [ServiceTime.within, if_neg out] at last
    cases last

theorem ofPulloutOnly (trip : String) (pullout : Int) (timed : ∃ d, Departs stops d) :
    OnlyOutOfRange (ofPullout tolerance trip pullout stops) := by
  obtain ⟨d, known⟩ := timed
  obtain ⟨w, around⟩ := aroundDepartures tolerance known
  rw [ofPulloutTimed trip pullout around]
  apply (ServiceTime.withinOnly _).bind
  intro start
  apply (ServiceTime.withinOnly _).bind
  intro finish
  exact .ok _

end Window

end TransitTimeline
