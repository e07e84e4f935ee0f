import Mathlib
import TransitTimeline.Proofs.Source.InTurn

/-! A service date read through a source that fails now and then. Each group of tables has a course of its own, whatever turns
the groups take: a location is read again behind a failure, and what the locations give in the end decides the date. -/
namespace TransitTimeline

inductive Group where
  | gtfs | tm | crossings | pings
  deriving DecidableEq

abbrev Group.Rows : Group → Type
  | .gtfs => Gtfs.Tables
  | .tm => Tm.Tables
  | .crossings => List Crossing
  | .pings => List Ping

def Manifest.locations (f : Manifest) : Group → List String
  | .gtfs => ["trips", "stop_times", "routes", "directions", "route_patterns", "stops", "calendar",
      "calendar_dates"].map f.gtfsTable
  | .tm => ["GEO_NODE", "ROUTE", "TRIP", "VEHICLE", "PATTERN_GEO_NODE_XREF", "TIME_POINT", "DAILY_WORK_PIECE",
      "DAILY_SCHEDULE_STOP"].map f.tmTable
  | .crossings => f.crossingFiles
  | .pings => PartitionFile.distinct f.positionFiles

namespace ServiceDate
open Reads

section Groups
variable {f : Manifest}

abbrev AllRows := Gtfs.Tables × Tm.Tables × List Crossing × List Ping

def together (rows : ∀ g : Group, g.Rows) : AllRows := (rows .gtfs, rows .tm, rows .crossings, rows .pings)

def loadOf (f : Manifest) : (g : Group) → ExceptT Failure Reads g.Rows
  | .gtfs => loadGtfs f
  | .tm => loadTm f
  | .crossings => loadCrossings f
  | .pings => loadPings f

theorem inTurn (f : Manifest) (g : Group) : InTurn (f.locations g) (loadOf f g).run := by
  cases g with
  | gtfs =>
    exact (InTurn.table _ _).bind fun trips => (InTurn.table _ _).bind fun stopTimes => (InTurn.table _ _).bind fun routes =>
      (InTurn.table _ _).bind fun directions => (InTurn.table _ _).bind fun patterns => (InTurn.table _ _).bind fun stops =>
      (InTurn.table _ _).bind fun weeks => (InTurn.table _ _).map _
  | tm =>
    exact (InTurn.table _ _).bind fun nodes => (InTurn.table _ _).bind fun routes => (InTurn.table _ _).bind fun trips =>
      (InTurn.table _ _).bind fun vehicles => (InTurn.table _ _).bind fun patternNodes =>
      (InTurn.table _ _).bind fun timePoints => (InTurn.table _ _).bind fun workPieces => (InTurn.table _ _).map _
  | crossings => exact .tables _ _
  | pings => exact .tables _ _

def own (g : Group) (log : List (Group × Event)) : List Event := (log.filter (·.1 = g)).map (·.2)

theorem ownCons (g h : Group) (e : Event) (log : List (Group × Event)) :
    own g ((h, e) :: log) = if h = g then e :: own g log else own g log := by
  unfold own
  rw [List.filter_cons]
  by_cases same : h = g <;> simp [same]

theorem joinLog {g : Group} {p q all : List Event} (merged : Merged p q all) {rest : List (Group × Event)}
    (others : rest.map (·.2) = q) (apart : ∀ x ∈ rest, x.1 ≠ g) : ∃ log, log.map (·.2) = all ∧ own g log = p ∧
      (∀ h ≠ g, own h log = own h rest) ∧ ∀ x ∈ log, x.1 = g ∨ x ∈ rest := by
  induction merged generalizing rest with
  | nil =>
    obtain rfl := List.map_eq_nil_iff.mp others
    exact ⟨[], rfl, rfl, fun _ _ => rfl, by simp⟩
  | @left e p q all _ ih =>
    obtain ⟨log, shown, mine, theirs, whence⟩ := ih others apart
    refine ⟨(g, e) :: log, by rw [List.map_cons, shown], by rw [ownCons, if_pos rfl, mine], fun h other => ?_, ?_⟩
    · rw [ownCons, if_neg (Ne.symm other), theirs h other]
    · intro x member
      rcases List.mem_cons.mp member with rfl | later
      · exact .inl rfl
      · exact whence x later
  | @right e p q all _ ih =>
    obtain ⟨⟨k, _⟩, rest, rfl, rfl, behind⟩ := List.map_eq_cons_iff.mp others
    obtain ⟨log, shown, mine, theirs, whence⟩ := ih behind fun x later => apart x (List.mem_cons_of_mem _ later)
    have other : k ≠ g := apart _ List.mem_cons_self
    refine ⟨(k, _) :: log, by rw [List.map_cons, shown], by rw [ownCons, if_neg other, mine], fun h different => ?_, ?_⟩
    · rw [ownCons, ownCons, theirs h different]
    · intro x member
      rcases List.mem_cons.mp member with rfl | later
      · exact .inr List.mem_cons_self
      · exact (whence x later).imp_right (List.mem_cons_of_mem _)

section Ends
variable {ends : ∀ g : Group, Reads (Except Failure g.Rows)} {all : Except Failure AllRows}

inductive AllEnd (ends : ∀ g : Group, Reads (Except Failure g.Rows)) : Except Failure AllRows → Prop
  | through (rows : ∀ g : Group, g.Rows) (own : ∀ g, ends g = done (.ok (rows g))) : AllEnd ends (.ok (together rows))
  | failed (g : Group) (e : Failure) (own : ends g = done (.error e)) : AllEnd ends (.error e)

theorem AllEnd.ofRows {rows : ∀ g : Group, g.Rows} (ended : AllEnd ends all) (own : ∀ g, ends g = done (.ok (rows g))) :
    all = .ok (together rows) := by
  cases ended with
  | through others also =>
    have same : others = rows := funext fun g => Except.ok.inj (done.inj ((also g).symm.trans (own g)))
    rw [same]
  | failed g e also => cases (own g).symm.trans also

theorem allEnd {others : Reads (Except Failure (Tm.Tables × List Crossing × List Ping))}
    {observed : Reads (Except Failure (List Crossing × List Ping))} (first : Ends (ends .gtfs) others all)
    (second : ∀ r, others = done r → Ends (ends .tm) observed r)
    (third : ∀ r, observed = done r → Ends (ends .crossings) (ends .pings) r) : AllEnd ends all := by
  generalize gtfsOwn : ends .gtfs = gtfsEnd at first
  generalize tmOwn : ends .tm = tmEnd at second
  generalize crossingsOwn : ends .crossings = crossingsEnd at third
  generalize pingsOwn : ends .pings = pingsEnd at third
  cases first with
  | both gtfs rest =>
    cases second _ rfl with
    | both tm rest => cases third _ rfl with
      | both crossings pings =>
        exact .through (fun | .gtfs => gtfs | .tm => tm | .crossings => crossings | .pings => pings) fun
          | .gtfs => gtfsOwn
          | .tm => tmOwn
          | .crossings => crossingsOwn
          | .pings => pingsOwn
  | left e => exact .failed .gtfs e gtfsOwn
  | right e =>
    cases second _ rfl with
    | left => exact .failed .tm e tmOwn
    | right => cases third _ rfl with
      | left => exact .failed .crossings e crossingsOwn
      | right => exact .failed .pings e pingsOwn

end Ends

theorem groupsGo {turns : Turns} {source : Source Reads} {events : List Event} {all : Except Failure AllRows}
    (goes : Goes (readGroups turns source f) events (done all)) :
    ∃ (log : List (Group × Event)) (ends : ∀ g : Group, Reads (Except Failure g.Rows)), log.map (·.2) = events ∧
      (∀ g, Goes (readGroup source (loadOf f g)) (own g log) (ends g)) ∧ AllEnd ends all := by
  obtain ⟨_, _, gtfsEnd, others, _, merged, gtfs, othersGo, ended⟩ := besideGoes goes
  obtain ⟨_, _, tmEnd, observed, _, otherEvents, tm, observedGo, otherEnds⟩ := besideGoes othersGo
  obtain ⟨_, pingEvents, crossingsEnd, pingsEnd, _, observedEvents, crossings, pings, observedEnds⟩ := besideGoes observedGo
  have ownPings : own .pings (pingEvents.map fun e => (Group.pings, e)) = pingEvents := by
    simp [own, List.filter_map, Function.comp_def]
  have pingsShown : (pingEvents.map fun e => (Group.pings, e)).map (·.2) = pingEvents := by simp [Function.comp_def]
  -- the positions have the innermost log; each group around them is merged into it and leaves the others' events as they are
  obtain ⟨low, lowShown, lowOwn, lowTheirs, lowWhence⟩ := joinLog (g := .crossings) observedEvents pingsShown (by simp)
  have lowGroup : ∀ x ∈ low, x.1 = .crossings ∨ x.1 = .pings := by
    intro x member
    refine (lowWhence x member).imp_right fun inside => ?_
    obtain ⟨e, _, rfl⟩ := List.mem_map.mp inside
    rfl
  obtain ⟨mid, midShown, midOwn, midTheirs, midWhence⟩ := joinLog (g := .tm) otherEvents lowShown
    fun x member same => by rcases lowGroup x member with other | other <;> cases same.symm.trans other
  obtain ⟨log, shown, logOwn, logTheirs, _⟩ := joinLog (g := .gtfs) merged midShown fun x member same => by
    rcases midWhence x member with other | inside
    · cases same.symm.trans other
    · rcases lowGroup x inside with other | other <;> cases same.symm.trans other
  have ownTm : own .tm log = own .tm mid := logTheirs .tm (by decide)
  have ownCrossings : own .crossings log = own .crossings low :=
    (logTheirs .crossings (by decide)).trans (midTheirs .crossings (by decide))
  have ownPings : own .pings log = pingEvents :=
    (logTheirs .pings (by decide)).trans ((midTheirs .pings (by decide)).trans ((lowTheirs .pings (by decide)).trans ownPings))
  let ends : ∀ g : Group, Reads (Except Failure g.Rows)
    | .gtfs => gtfsEnd
    | .tm => tmEnd
    | .crossings => crossingsEnd
    | .pings => pingsEnd
  refine ⟨log, ends, shown, fun g => ?_, ?_⟩
  · cases g with
    | gtfs => rwa [logOwn]
    | tm => rwa [ownTm, midOwn]
    | crossings => rwa [ownCrossings, lowOwn]
    | pings => rwa [ownPings]
  · exact allEnd (besideDone ended.symm) (fun r same => besideDone (otherEnds.symm.trans same))
      fun r same => besideDone (observedEnds.symm.trans same)

section Plainly
variable {source : Source Id}

theorem groupAsked {α : Type} (group : ExceptT Failure Reads α) : readGroup Source.asked group = group.run := throughAsked _

theorem allPlainly (source : Source Id) (asked : Source Reads) (turns : Turns) (f : Manifest) :
    AllEnd (fun g => done ((readGroup asked (loadOf f g)).plainly source)) ((readGroups turns asked f).plainly source) :=
  allEnd (besidePlainly source turns.gtfs _ _) (fun _ => besideEnds) fun _ =>
    besideEnds (x := readGroup asked (loadCrossings f)) (y := readGroup asked (loadPings f))

theorem plainlyFails {asked : Source Reads} {turns : Turns} {e : Failure}
    (failed : (readGroups turns asked f).plainly source = .error e) :
    ∃ g, (readGroup asked (loadOf f g)).plainly source = .error e := by
  have ended := allPlainly source asked turns f
  rw [failed] at ended
  cases ended with
  | failed g _ own => exact ⟨g, done.inj own⟩

theorem plainlyTurns (source : Source Id) (asked : Source Reads) (f : Manifest) (turns others : Turns) :
    (readGroups turns asked f).plainly source = (readGroups others asked f).plainly source ∨
    ∃ d e, (readGroups turns asked f).plainly source = .error d ∧ (readGroups others asked f).plainly source = .error e := by
  have ended := allPlainly source asked turns f
  have again := allPlainly source asked others f
  generalize (readGroups turns asked f).plainly source = one at ended ⊢
  cases ended with
  | through rows own => exact .inl (again.ofRows own).symm
  | failed g d own =>
    generalize (readGroups others asked f).plainly source = other at again ⊢
    cases again with
    | through rows also => cases own.symm.trans (also g)
    | failed _ e _ => exact .inr ⟨d, e, rfl, rfl⟩

theorem failsFirst {g : Group} {e : Failure} (fails : (loadOf f g).run.plainly source = .error e) :
    ∃ turns, (readGroups turns Source.asked f).plainly source = .error e := by
  have observedFine (turns : List Bool) : (beside turns (loadCrossings f).run (loadPings f).run).failure? = none :=
    besideFine turns (inTurn f .crossings).fine (inTurn f .pings).fine
  have othersFine (turns more : List Bool) :
      (beside turns (loadTm f).run (beside more (loadCrossings f).run (loadPings f).run)).failure? = none :=
    besideFine turns (inTurn f .tm).fine (observedFine more)
  unfold readGroups
  simp only [groupAsked]
  cases g with
  | gtfs =>
    obtain ⟨first, ended⟩ := leftFirst (othersFine [] []) fails
    exact ⟨⟨first, [], []⟩, ended⟩
  | tm =>
    obtain ⟨second, fails⟩ := leftFirst (observedFine []) fails
    obtain ⟨first, ended⟩ := rightFirst (inTurn f .gtfs).fine fails
    exact ⟨⟨first, second, []⟩, ended⟩
  | crossings =>
    obtain ⟨third, fails⟩ := leftFirst (inTurn f .pings).fine fails
    obtain ⟨second, fails⟩ := rightFirst (inTurn f .tm).fine fails
    obtain ⟨first, ended⟩ := rightFirst (inTurn f .gtfs).fine fails
    exact ⟨⟨first, second, third⟩, ended⟩
  | pings =>
    obtain ⟨third, fails⟩ := rightFirst (inTurn f .crossings).fine fails
    obtain ⟨second, fails⟩ := rightFirst (inTurn f .tm).fine fails
    obtain ⟨first, ended⟩ := rightFirst (inTurn f .gtfs).fine fails
    exact ⟨⟨first, second, third⟩, ended⟩

def OfGroups (f : Manifest) (e : Failure) : Prop := ∃ g, ∃ location ∈ f.locations g, e.OfReading location

theorem plainlyNames {turns : Turns} {e : Failure} (failed : (readGroups turns Source.asked f).plainly source = .error e) :
    OfGroups f e := by
  obtain ⟨g, failed⟩ := plainlyFails failed
  rw [groupAsked] at failed
  exact ⟨g, (inTurn f g).names failed⟩

end Plainly

structure AllCame (r : Retry) (f : Manifest) (log : List (Group × Event)) (ending : Group → Ending)
    (all : Except Failure AllRows) : Prop where
  course : ∀ g, Course r (f.locations g) (own g log) (ending g)
  names : ∀ e, all = .error e → OfGroups f e
  lost : (∃ g, ending g = .lost) → ∃ e, all = .error e
  through : ∀ a, all = .ok a → ∀ g, ending g = .through
  plain : ∀ bytes, Gives bytes (log.map (·.2)) → (∀ g, ending g ≠ .lost) →
    ∃ turns, (readGroups turns Source.asked f).plainly (Source.reliable bytes) = all

theorem givesOwn {bytes : String → List UInt8} {log : List (Group × Event)} (gives : Gives bytes (log.map (·.2))) (g : Group) :
    Gives bytes (own g log) := by
  intro location given member
  obtain ⟨x, inside, same⟩ := List.mem_map.mp member
  exact gives location given (List.mem_map.mpr ⟨x, (List.mem_filter.mp inside).1, same⟩)

theorem groupsCome {turns : Turns} {r : Retry} {events : List Event} {all : Except Failure AllRows}
    (goes : Goes (readGroups turns (Source.asked.retrying r pause) f) events (done all)) :
    ∃ log ending, log.map (·.2) = events ∧ AllCame r f log ending all := by
  obtain ⟨log, ends, shown, each, ended⟩ := groupsGo goes
  choose ending came using fun g => retriedComes (inTurn f g) (each g)
  refine ⟨log, ending, shown, ?_⟩
  constructor
  case course => exact fun g => (came g).course
  case names =>
    rintro e rfl
    cases ended with
    | failed g _ own => exact ⟨g, (came g).names e own⟩
  case lost =>
    rintro ⟨g, lost⟩
    obtain ⟨_, _, failed⟩ := (came g).lost lost
    cases ended with
    | through rows own => cases (own g).symm.trans failed
    | failed _ e _ => exact ⟨e, rfl⟩
  case through =>
    rintro a rfl g
    cases ended with
    | through rows own => exact (came g).ended _ (own g)
  case plain =>
    intro bytes gives found
    have plain (g : Group) : ∀ v, ends g = done v → (loadOf f g).run.plainly (Source.reliable bytes) = v :=
      (came g).plain bytes (givesOwn gives g) (found g)
    cases ended with
    | through rows own =>
      refine ⟨{}, (allPlainly (Source.reliable bytes) Source.asked {} f).ofRows fun g => ?_⟩
      rw [groupAsked, plain g _ (own g)]
    | failed g e own => exact failsFirst (plain g _ own)

end Groups

section Date
variable {zones : String → Option Zone} {turns : Turns} {source : Source Reads} {f : Manifest} {date : Day} {zoneName : String}
  {tolerance : Int}

def dateOf (zones : String → Option Zone) (date : Day) (zoneName : String) (tolerance : Int) :
    Except Failure (Gtfs.Tables × Tm.Tables × List Crossing × List Ping) → Except Failure Report
  | .ok (gtfs, tm, crossings, pings) => reconcileIn zones date { gtfs, tm, crossings, pings } zoneName tolerance
  | .error e => .error e

theorem readsAssoc {α β γ : Type} (x : Reads α) (f : α → Reads β) (g : β → Reads γ) :
    x >>= f >>= g = x >>= fun a => f a >>= g := by
  induction x with
  | done a => rfl
  | read location next ih => exact congrArg (Reads.read location) (funext ih)
  | wait n next ih => exact congrArg (Reads.wait n) ih

theorem runSplit : (runIn zones turns source f date zoneName tolerance).run =
    readGroups turns source f >>= fun all => done (dateOf zones date zoneName tolerance all) := by
  show (readGroups turns source f >>= _) >>= _ = _
  rw [readsAssoc]
  refine congrArg (readGroups turns source f >>= ·) (funext fun all => ?_)
  cases all <;> rfl

theorem runPlainly (source : Source Id) (asked : Source Reads) (turns : Turns) :
    (runIn zones turns asked f date zoneName tolerance).run.plainly source =
      dateOf zones date zoneName tolerance ((readGroups turns asked f).plainly source) := by
  rw [runSplit, plainlyBind]
  rfl

def Unread (f : Manifest) (result : Except Failure Report) : Prop := ∃ e, result = .error e ∧ OfGroups f e

/- Where a source has one answer for each location, the turns leave a date's result as it is, or its failure one of reading. -/
theorem turnsAside {source : Source Id} {asked : Source Reads}
    (names : ∀ turns e, (readGroups turns asked f).plainly source = .error e → OfGroups f e) (turns others : Turns) :
    (runIn zones turns asked f date zoneName tolerance).run.plainly source =
      (runIn zones others asked f date zoneName tolerance).run.plainly source ∨
    Unread f ((runIn zones turns asked f date zoneName tolerance).run.plainly source) ∧
      Unread f ((runIn zones others asked f date zoneName tolerance).run.plainly source) := by
  rw [runPlainly, runPlainly]
  refine (plainlyTurns source asked f turns others).imp (congrArg _) fun fails => ?_
  obtain ⟨d, e, first, second⟩ := fails
  rw [first, second]
  exact ⟨⟨d, rfl, names _ d first⟩, ⟨e, rfl, names _ e second⟩⟩

theorem retriedNames (source : Source Id) (r : Retry) (turns : Turns) (e : Failure)
    (failed : (readGroups turns (Source.asked.retrying r pause) f).plainly source = .error e) : OfGroups f e := by
  obtain ⟨events, goes, _⟩ := plainlyGoes source (readGroups turns (Source.asked.retrying r pause) f)
  obtain ⟨_, _, _, came⟩ := groupsCome goes
  exact came.names e failed

def reliably (zones : String → Option Zone) (bytes : String → List UInt8) (turns : Turns) (f : Manifest) (date : Day)
    (zoneName : String) (tolerance : Int) : Except Failure Report :=
  Id.run ((runIn zones turns Source.asked f date zoneName tolerance).run.through (Source.reliable bytes) fun _ => pure ())

/- A run of a date through a source that is read again behind failures: what the source was asked in it, how each group came
along, and what they say of the result. -/
structure Retried {σ : Type} (zones : String → Option Zone) (source : Source (StateM σ)) (r : Retry) (pause : Nat → StateM σ Unit)
    (f : Manifest) (date : Day) (zoneName : String) (tolerance : Int) (s t : σ) (result : Except Failure Report)
    (log : List (Group × Event)) (ending : Group → Ending) : Prop where
  happens : Happens source pause s (log.map (·.2)) t
  course : ∀ g, Course r (f.locations g) (own g log) (ending g)
  -- without turns of its own, a source that never fails gives another result only where a table cannot be decoded
  recovered : ∀ bytes, Gives bytes (log.map (·.2)) → (∀ g, ending g ≠ .lost) →
    (∃ turns, reliably zones bytes turns f date zoneName tolerance = result) ∧
    ∀ turns, ¬Unread f result ∨ ¬Unread f (reliably zones bytes turns f date zoneName tolerance) →
      reliably zones bytes turns f date zoneName tolerance = result
  lost : (∃ g, ending g = .lost) → Unread f result
  through : ¬Unread f result → ∀ g, ending g = .through

variable {σ : Type} {inner : Source (StateM σ)} {r : Retry} {rest : Nat → StateM σ Unit} {s t : σ}

theorem dateRetried {result : Except Failure Report}
    (ran : ((runIn zones turns (Source.asked.retrying r pause) f date zoneName tolerance).run.through inner rest).run s =
      (result, t)) :
    ∃ log ending, Retried zones inner r rest f date zoneName tolerance s t result log ending := by
  obtain ⟨events, goes, happens⟩ := throughExactly.mp ran
  rw [runSplit] at goes
  obtain ⟨all, p, q, rfl, groupsGo, ended⟩ := bindGoesDone goes
  obtain ⟨rfl, same⟩ := ended.fromDone
  cases same
  rw [List.append_nil] at happens
  obtain ⟨log, ending, rfl, came⟩ := groupsCome groupsGo
  have unread {e : Failure} (failed : all = .error e) : Unread f (dateOf zones date zoneName tolerance all) :=
    ⟨e, by rw [failed]; rfl, came.names e failed⟩
  refine ⟨log, ending, happens, came.course, ?_, ?_, ?_⟩
  · intro bytes gives found
    obtain ⟨first, rfl⟩ := came.plain bytes gives found
    have same : reliably zones bytes first f date zoneName tolerance = _ := runPlainly ..
    refine ⟨⟨first, same⟩, fun turns fine => same ▸ ?_⟩
    -- other turns may come upon another group's failure first, so two results agree unless both are failures of reading
    rcases turnsAside (fun _ e failed => plainlyNames failed) turns first with plain | ⟨unread, unreadFirst⟩
    · exact plain
    · rcases fine with fine | fine
      · exact absurd (same ▸ unreadFirst) fine
      · exact absurd unread fine
  · rintro lost
    obtain ⟨e, failed⟩ := came.lost lost
    exact unread failed
  · intro fine
    cases all with
    | ok a => exact came.through a rfl
    | error e => exact (fine (unread rfl)).elim

theorem throughGiven {log : List (Group × Event)} {ending : Group → Ending} {result : Except Failure Report}
    (retried : Retried zones inner r rest f date zoneName tolerance s t result log ending) (fine : ¬Unread f result) {g : Group}
    {location : String} (member : location ∈ f.locations g) : ∃ bytes u v, (inner location).run u = (.ok bytes, v) := by
  have course := retried.course g
  rw [retried.through fine g] at course
  obtain ⟨bytes, given⟩ := course.given location member
  obtain ⟨x, inside, same⟩ := List.mem_map.mp given
  obtain ⟨u, v, answered⟩ := retried.happens.answered (List.mem_map.mpr ⟨x, (List.mem_filter.mp inside).1, same⟩)
  exact ⟨bytes, u, v, answered⟩

theorem readsRetried {σ : Type} (zones : String → Option Zone) (source : Source (StateM σ)) (r : Retry)
    (pause : Nat → StateM σ Unit) :
    (∀ location s answer t, (source.retrying r pause location).run s = (answer, t) ↔
      ∃ answers, Happens source pause s (Retry.attempted location r.backoff answers) t ∧
        Retry.Settles (max 1 r.attempts) answers answer ∧ answers.length ≤ max 1 r.attempts) ∧
    ∀ turns f date zoneName tolerance s result t,
      ((runIn zones turns (Source.asked.retrying r Reads.pause) f date zoneName tolerance).run.through source pause).run s =
        (result, t) →
      (∃ log ending, Retried zones source r pause f date zoneName tolerance s t result log ending) ∧
      ∀ g, ∀ location ∈ f.locations g, (∀ u, ∃ fault v, (source location).run u = (.error fault, v)) → Unread f result := by
  constructor
  · intro location s answer t
    refine Retry.retryingExactly.trans (exists_congr fun answers => and_congr_right fun _ => ?_)
    exact (and_iff_left_of_imp Retry.Settles.atMost).symm
  · intro turns f date zoneName tolerance s result t ran
    obtain ⟨log, ending, retried⟩ := dateRetried ran
    refine ⟨⟨log, ending, retried⟩, fun g location member fails => Classical.byContradiction fun fine => ?_⟩
    obtain ⟨bytes, u, v, given⟩ := throughGiven retried fine member
    obtain ⟨fault, w, failed⟩ := fails u
    cases given.symm.trans failed

def flaky (failures : Nat) : Source (StateM Nat) := fun _ calls =>
  (if calls < failures then .error ⟨.other, "transient"⟩ else .ok [], calls + 1)

def emptyTables : Manifest := ⟨"gtfs", "tm", ".csv", [], []⟩

def emptyDate (turns : Turns) : Except Failure Report :=
  (((runIn Zone.named? turns (Source.asked.retrying ⟨2, 1⟩ Reads.pause) emptyTables ⟨0⟩ "UTC" 1800).run.through (flaky 2)
    fun _ => pure ()).run 0).1

theorem emptyPings : loadPings emptyTables = pure [] := by
  have none : PartitionFile.distinct [] = [] := by
    simp only [PartitionFile.distinct, List.filterMap_nil, List.filter_nil, List.mergeSort_nil]
    rfl
  unfold loadPings
  rw [show emptyTables.positionFiles = [] from rfl, none]
  rfl

theorem emptyDateOf (turns : Turns) : emptyDate turns = dateOf Zone.named? ⟨0⟩ "UTC" 1800
    (((readGroups turns (Source.asked.retrying ⟨2, 1⟩ Reads.pause) emptyTables).through (flaky 2) fun _ => pure ()).run 0).1 := by
  rw [emptyDate, runSplit, throughBind]
  rfl

theorem emptyDateRead : (emptyDate ⟨[true, false], [true], []⟩).toOption.isSome := by
  have universal : zoneIn Zone.named? "UTC" = .ok ⟨"UTC", 0, []⟩ := rfl
  have groups : (((readGroups ⟨[true, false], [true], []⟩ (Source.asked.retrying ⟨2, 1⟩ Reads.pause) emptyTables).through
      (flaky 2) fun _ => pure ()).run 0).1 = .ok default := by
    unfold readGroups
    rw [emptyPings]
    rfl
  rw [emptyDateOf, groups]
  show (reconcileIn Zone.named? ⟨0⟩ default "UTC" 1800).toOption.isSome
  unfold reconcileIn schedule
  rw [universal]
  cbv

theorem emptyDateUnread : emptyDate {} = .error (.unreadable "gtfs/trips.csv") := by
  rw [emptyDateOf]
  unfold readGroups
  rw [emptyPings]
  rfl

theorem flakyGives {failures : Nat} {pause : Nat → StateM Nat Unit} {events : List Event} {s t : Nat}
    (happens : Happens (flaky failures) pause s events t) : Gives (fun _ => []) events := by
  intro location given member
  obtain ⟨u, v, answered⟩ := happens.answered member
  have answer := congrArg Prod.fst answered
  change (if u < failures then Except.error (ReadFault.mk .other "transient") else .ok []) = .ok given at answer
  split at answer
  · cases answer
  · exact (Except.ok.inj answer).symm

/- With turns each feed fails once; one group behind the other, the first table fails twice. -/
theorem readsRetriedInTurn : ∃ report, emptyDate ⟨[true, false], [true], []⟩ = .ok report ∧
    (∀ turns, reliably Zone.named? (fun _ => []) turns emptyTables ⟨0⟩ "UTC" 1800 = .ok report) ∧
    emptyDate {} = .error (.unreadable "gtfs/trips.csv") := by
  have readable := emptyDateRead
  cases known : emptyDate ⟨[true, false], [true], []⟩ with
  | error e =>
    rw [known] at readable
    cases readable
  | ok report =>
    refine ⟨report, rfl, ?_, emptyDateUnread⟩
    have outcome := (readsRetried Zone.named? (flaky 2) ⟨2, 1⟩ fun _ => pure ()).2 ⟨[true, false], [true], []⟩ emptyTables ⟨0⟩
      "UTC" 1800 0 (.ok report) _ (Prod.ext known rfl)
    obtain ⟨⟨log, ending, retried⟩, _⟩ := outcome
    have fine : ¬Unread emptyTables (.ok report) := by
      rintro ⟨e, failed, _⟩
      cases failed
    have found : ∀ g, ending g ≠ .lost := fun g lost => fine (retried.lost ⟨g, lost⟩)
    exact fun turns => (retried.recovered _ (flakyGives retried.happens) found).2 turns (.inl fine)

end Date

end ServiceDate

end TransitTimeline
