import MetricReporting.Proofs.NameMaps
import MetricReporting.Proofs.Snapshots
import MetricReporting.Proofs.Texts
/-!
What a registry answers to its clients. They share it, and it is held for the length of a call, so whatever they do
between them is one list of moves. A name keeps its metric until it is removed, and a call that fails changes nothing
(`Registry.orderly_through`).
-/
namespace MetricReporting

namespace Change

theorem get_gauge_perform (c : Change) (s : Store) (h : Handle .gauge) (hin : Metric.IsIn s ⟨.gauge, h⟩) :
    (c.perform s).state.get h = s.get h := by
  cases c with
  | setClock clock => rfl
  | addProbe probe => rfl
  | setProbe p probe => rfl
  | create kind object => exact s.get_add object h hin
  | add h' n => exact Store.get_set_of_kind_ne s h' _ h (by decide)
  | subtract h' n => exact Store.get_set_of_kind_ne s h' _ h (by decide)
  | observe h' value => exact Store.get_set_of_kind_ne s h' _ h (by decide)
  | mark h' n =>
    rw [perform, Metered.state_mark]
    exact Metered.get_gauge_set _ s _ h
  | record h' span =>
    rw [perform, Timer.state_record]
    exact Store.get_set_of_kind_ne s h' _ h (by decide)
  | ask h' =>
    have hasked : ((ask h').perform s).state = Gauge.asked s h' := by
      rw [← Gauge.state_read]
      cases hread : (Gauge.read h' s).result with
      | error fault => rw [perform, Action.bind_of_error hread]
      | ok v => rw [perform, Action.bind_of_ok hread]; rfl
    rw [hasked]
    rfl
  | readRate metered horizon =>
    rw [perform, Action.state_map, Metered.state_readRate]
    split
    · rfl
    · exact metered.get_gauge_set s _ h

end Change

namespace Registry

section

variable {i : Instruments} {name : String}

theorem checkName_of_blank (h : Text.IsBlank name) : (checkName name i).Ends (.error (.failure .blankName)) i := by
  rw [checkName, if_pos ((Text.isEmpty_stripped_iff _).mpr h)]
  exact ⟨rfl, rfl⟩

theorem checkName_of_visible (h : ¬ Text.IsBlank name) : (checkName name i).Ends (.ok ()) i := by
  rw [checkName, if_neg (fun hempty => h ((Text.isEmpty_stripped_iff _).mp hempty))]
  exact ⟨rfl, rfl⟩

variable {kind : Kind} (object : Store → kind.Object)

theorem getOrCreate_of_blank (h : Text.IsBlank name) :
    (getOrCreate kind object name i).Ends (.error (.failure .blankName)) i := .bind_error (checkName_of_blank h)

theorem getOrCreate_of_found (sound : i.registry.poisoned = false) (h : ¬ Text.IsBlank name) {handle : Handle kind}
    (hfound : i.registry.metrics.get? name = some ⟨kind, handle⟩) :
    (getOrCreate kind object name i).Ends (.ok handle) i := by
  refine .bind_ok (checkName_of_visible h) (.bind_ok (metricsByName_of_sound i sound) ?_)
  simp only [hfound, dite_true]
  exact ⟨rfl, rfl⟩

theorem getOrCreate_of_other_kind (sound : i.registry.poisoned = false) (h : ¬ Text.IsBlank name) {metric : Metric}
    (hfound : i.registry.metrics.get? name = some metric) (hkind : metric.kind ≠ kind) :
    (getOrCreate kind object name i).Ends (.error (.failure (.kindMismatch name metric.kind kind))) i := by
  refine .bind_ok (checkName_of_visible h) (.bind_ok (metricsByName_of_sound i sound) ?_)
  simp only [hfound, hkind, dite_false]
  exact ⟨rfl, rfl⟩

theorem getOrCreate_of_free (sound : i.registry.poisoned = false) (h : ¬ Text.IsBlank name)
    (hfree : i.registry.metrics.get? name = none) :
    (getOrCreate kind object name i).Ends (.ok (i.store.add (object i.store)).1)
      (entered { i with store := (i.store.add (object i.store)).2 } name ⟨kind, (i.store.add (object i.store)).1⟩) := by
  refine .bind_ok (checkName_of_visible h) (.bind_ok (metricsByName_of_sound i sound) ?_)
  rw [hfree]
  exact .bind_ok (.on ⟨rfl, rfl⟩) (.bind_ok (enter_ends _ _ _) ⟨rfl, rfl⟩)

variable {metric : Metric}

theorem register_of_blank (h : Text.IsBlank name) :
    (register name metric i).Ends (.error (.failure .blankName)) i := .bind_error (checkName_of_blank h)

theorem register_of_taken (sound : i.registry.poisoned = false) (h : ¬ Text.IsBlank name) {found : Metric}
    (hfound : i.registry.metrics.get? name = some found) :
    (register name metric i).Ends (.error (.failure (.nameTaken name))) i := by
  refine .bind_ok (checkName_of_visible h) (.bind_ok (metricsByName_of_sound i sound) ?_)
  rw [NameMap.contains, hfound, Option.isSome_some, if_pos rfl]
  exact ⟨rfl, rfl⟩

theorem register_of_free (sound : i.registry.poisoned = false) (h : ¬ Text.IsBlank name)
    (hfree : i.registry.metrics.get? name = none) :
    (register name metric i).Ends (.ok ()) (entered i name metric) := by
  refine .bind_ok (checkName_of_visible h) (.bind_ok (metricsByName_of_sound i sound) ?_)
  rw [NameMap.contains, hfree, Option.isSome_none, if_neg (by decide)]
  exact enter_ends i name metric

theorem select_of_total (sound : i.registry.poisoned = false) (admits : Store → String → Metric → Bool) :
    ∃ snapshot, (select (fun s name x => .ok (admits s name x)) i).Ends (.ok snapshot) i := by
  obtain ⟨snapshot, hadmitted, -⟩ :=
    exists_admitted (fun s name x => .ok (admits s name x)) i (fun e => admits i.store e.1 e.2) (fun _ _ => rfl)
  exact ⟨snapshot, select_of_admitted i sound hadmitted⟩

end

inductive Request
  | counter (name : String)
  | histogram (name : String)
  | meter (name : String)
  | timer (name : String)
  | gauge (name : String) (probe : ProbeId)
  | register (name : String) (metric : Metric)
  | remove (name : String)
  | get (name : String)
  | names
  | size
  | select (admits : Store → String → Metric → Bool)

inductive Reply
  | metric (x : Metric)
  | removed (inUse : Bool)
  | found (x : Option Metric)
  | names (names : List String)
  | size (n : Nat)
  | snapshot (s : Snapshot)

namespace Request

def perform : Request → Action Instruments Reply
  | counter name => do return .metric ⟨.counter, ← Registry.counter name⟩
  | histogram name => do return .metric ⟨.histogram, ← Registry.histogram name⟩
  | meter name => do return .metric ⟨.meter, ← Registry.meter name⟩
  | timer name => do return .metric ⟨.timer, ← Registry.timer name⟩
  | gauge name probe => do return .metric ⟨.gauge, ← Registry.gauge name probe⟩
  | register name metric => do
    Registry.register name metric
    return .metric metric
  | remove name => do return .removed (← Registry.remove name)
  | get name => do return .found (← Registry.get? name)
  | names => do return .names (← Registry.names)
  | size => do return .size (← Registry.size)
  | select admits => do return .snapshot (← Registry.select fun s name x => .ok (admits s name x))

def obtains : Request → Option (String × Kind)
  | counter name => some (name, .counter)
  | histogram name => some (name, .histogram)
  | meter name => some (name, .meter)
  | timer name => some (name, .timer)
  | gauge name _ => some (name, .gauge)
  | _ => none

def names? : Request → Option String
  | register name _ => some name
  | r => r.obtains.map Prod.fst

theorem perform_of_obtains {r : Request} {name : String} {kind : Kind} (h : r.obtains = some (name, kind)) :
    ∃ object : Store → kind.Object, r.perform = do return .metric ⟨kind, ← getOrCreate kind object name⟩ := by
  cases r <;> cases h <;> exact ⟨_, rfl⟩

theorem names?_of_obtains {r : Request} {name : String} {kind : Kind} (h : r.obtains = some (name, kind)) :
    r.names? = some name := by
  cases r <;> cases h <;> rfl

theorem names?_cases {r : Request} {name : String} (h : r.names? = some name) :
    (∃ kind, r.obtains = some (name, kind)) ∨ ∃ metric, r = register name metric := by
  cases r <;> cases h <;> first | exact .inl ⟨_, rfl⟩ | exact .inr ⟨_, rfl⟩

end Request

inductive Refuses (i : Instruments) : Request → Failure → Prop
  | blank {r : Request} {name : String} (h : r.names? = some name) (hblank : Text.IsBlank name) : Refuses i r .blankName
  | otherKind {r : Request} {name : String} {wanted : Kind} {metric : Metric} (h : r.obtains = some (name, wanted))
      (hvisible : ¬ Text.IsBlank name) (hfound : i.registry.metrics.get? name = some metric)
      (hkind : metric.kind ≠ wanted) : Refuses i r (.kindMismatch name metric.kind wanted)
  | taken {name : String} {metric found : Metric} (hvisible : ¬ Text.IsBlank name)
      (hfound : i.registry.metrics.get? name = some found) : Refuses i (.register name metric) (.nameTaken name)

inductive Settles (i : Instruments) : Request → Except Fault Reply → Instruments → Prop
  | refused {r : Request} {cause : Failure} (h : Refuses i r cause) : Settles i r (.error (.failure cause)) i
  | found {r : Request} {name : String} {kind : Kind} {handle : Handle kind} (h : r.obtains = some (name, kind))
      (hvisible : ¬ Text.IsBlank name) (hfound : i.registry.metrics.get? name = some ⟨kind, handle⟩) :
      Settles i r (.ok (.metric ⟨kind, handle⟩)) i
  | made {r : Request} {name : String} {kind : Kind} (object : kind.Object) (h : r.obtains = some (name, kind))
      (hvisible : ¬ Text.IsBlank name) (hfree : i.registry.metrics.get? name = none) :
      Settles i r (.ok (.metric ⟨kind, (i.store.add object).1⟩))
        (entered { i with store := (i.store.add object).2 } name ⟨kind, (i.store.add object).1⟩)
  | registered {name : String} {metric : Metric} (hvisible : ¬ Text.IsBlank name)
      (hfree : i.registry.metrics.get? name = none) :
      Settles i (.register name metric) (.ok (.metric metric)) (entered i name metric)
  | removed (name : String) :
      Settles i (.remove name) (.ok (.removed (i.registry.metrics.contains name)))
        { i with registry := { i.registry with metrics := i.registry.metrics.erase name } }
  | told {r : Request} (reply : Reply) (hnames : r.names? = none) (hremove : ∀ name, r ≠ .remove name) :
      Settles i r (.ok reply) i

theorem perform_of_refuses {i : Instruments} (sound : i.registry.poisoned = false) {r : Request} {cause : Failure}
    (h : Refuses i r cause) : (r.perform i).Ends (.error (.failure cause)) i := by
  cases h with
  | blank hname hblank =>
    rcases Request.names?_cases hname with ⟨kind, hobtains⟩ | ⟨metric, rfl⟩
    · obtain ⟨object, hperform⟩ := Request.perform_of_obtains hobtains
      rw [hperform]
      exact .bind_error (getOrCreate_of_blank object hblank)
    · exact .bind_error (register_of_blank hblank)
  | otherKind hobtains hvisible hfound hkind =>
    obtain ⟨object, hperform⟩ := Request.perform_of_obtains hobtains
    rw [hperform]
    exact .bind_error (getOrCreate_of_other_kind object sound hvisible hfound hkind)
  | taken hvisible hfound => exact .bind_error (register_of_taken sound hvisible hfound)

theorem settles_of_obtains {i : Instruments} (sound : i.registry.poisoned = false) {r : Request} {name : String}
    {kind : Kind} (h : r.obtains = some (name, kind)) :
    ∃ result i', (r.perform i).Ends result i' ∧ Settles i r result i' := by
  have hrefused {cause : Failure} (hrefuses : Refuses i r cause) :
      ∃ result i', (r.perform i).Ends result i' ∧ Settles i r result i' :=
    ⟨_, _, perform_of_refuses sound hrefuses, .refused hrefuses⟩
  obtain ⟨object, hperform⟩ := Request.perform_of_obtains h
  by_cases hblank : Text.IsBlank name
  · exact hrefused (.blank (Request.names?_of_obtains h) hblank)
  · cases hfound : i.registry.metrics.get? name with
    | none =>
      rw [hperform]
      exact ⟨_, _, .bind_ok (getOrCreate_of_free object sound hblank hfound) ⟨rfl, rfl⟩, .made _ h hblank hfound⟩
    | some metric =>
      by_cases hkind : metric.kind = kind
      · subst hkind
        rw [hperform]
        exact ⟨_, _, .bind_ok (getOrCreate_of_found object sound hblank hfound) ⟨rfl, rfl⟩, .found h hblank hfound⟩
      · exact hrefused (.otherKind h hblank hfound hkind)

theorem settles_of_register {i : Instruments} (sound : i.registry.poisoned = false) (name : String) (metric : Metric) :
    ∃ result i', ((Request.register name metric).perform i).Ends result i' ∧
      Settles i (.register name metric) result i' := by
  have hrefused {cause : Failure} (hrefuses : Refuses i (.register name metric) cause) :
      ∃ result i', ((Request.register name metric).perform i).Ends result i' ∧
        Settles i (.register name metric) result i' :=
    ⟨_, _, perform_of_refuses sound hrefuses, .refused hrefuses⟩
  by_cases hblank : Text.IsBlank name
  · exact hrefused (.blank rfl hblank)
  · cases hfound : i.registry.metrics.get? name with
    | none => exact ⟨_, _, .bind_ok (register_of_free sound hblank hfound) ⟨rfl, rfl⟩, .registered hblank hfound⟩
    | some found => exact hrefused (.taken hblank hfound)

theorem perform_settles {i : Instruments} (sound : i.registry.poisoned = false) (r : Request) :
    ∃ result i', (r.perform i).Ends result i' ∧ Settles i r result i' := by
  have hmetrics := metricsByName_of_sound i sound
  cases r with
  | counter name => exact settles_of_obtains sound rfl
  | histogram name => exact settles_of_obtains sound rfl
  | meter name => exact settles_of_obtains sound rfl
  | timer name => exact settles_of_obtains sound rfl
  | gauge name probe => exact settles_of_obtains sound rfl
  | register name metric => exact settles_of_register sound name metric
  | remove name =>
    exact ⟨_, _, .bind_ok (.bind_ok hmetrics (.bind_ok ⟨rfl, rfl⟩ ⟨rfl, rfl⟩)) ⟨rfl, rfl⟩, .removed name⟩
  | get name => exact ⟨_, _, .bind_ok (.bind_ok hmetrics ⟨rfl, rfl⟩) ⟨rfl, rfl⟩, .told _ rfl nofun⟩
  | names => exact ⟨_, _, .bind_ok (.bind_ok hmetrics ⟨rfl, rfl⟩) ⟨rfl, rfl⟩, .told _ rfl nofun⟩
  | size => exact ⟨_, _, .bind_ok (.bind_ok hmetrics ⟨rfl, rfl⟩) ⟨rfl, rfl⟩, .told _ rfl nofun⟩
  | select admits =>
    obtain ⟨snapshot, hsnapshot⟩ := select_of_total sound admits
    exact ⟨_, _, .bind_ok hsnapshot ⟨rfl, rfl⟩, .told _ rfl nofun⟩

structure IsSound (i : Instruments) : Prop where
  unpoisoned : i.registry.poisoned = false
  visible (name : String) (x : Metric) : i.registry.metrics.get? name = some x → ¬ Text.IsBlank name

namespace Settles

variable {i i' : Instruments} {r : Request} {result : Except Fault Reply}

theorem get?_eq_none_or_some (h : Settles i r result i') {name : String} {x : Metric}
    (hx : i.registry.metrics.get? name = some x) :
    i'.registry.metrics.get? name = some x ∨
      r = .remove name ∧ result = .ok (.removed true) ∧ i'.registry.metrics.get? name = none := by
  cases h with
  | refused h => exact .inl hx
  | found h hvisible hfound => exact .inl hx
  | made object h hvisible hfree => exact .inl (Operation.registered_entered hx hfree)
  | registered hvisible hfree => exact .inl (Operation.registered_entered hx hfree)
  | removed other =>
    by_cases hname : name = other
    · subst hname
      refine .inr ⟨rfl, ?_, ?_⟩
      · rw [NameMap.contains, hx]
        rfl
      · exact (NameMap.get?_erase _ _ _).trans (if_pos rfl)
    · exact .inl ((NameMap.get?_erase _ _ _).trans ((if_neg hname).trans hx))
  | told reply hnames hremove => exact .inl hx

theorem isSound (h : Settles i r result i') (sound : IsSound i) : IsSound i' := by
  have hentered {j : Instruments} {name : String} {x : Metric} (hj : j.registry = i.registry)
      (hvisible : ¬ Text.IsBlank name) : IsSound (entered j name x) := by
    constructor
    · rw [entered, hj]
      exact sound.unpoisoned
    · intro other y hy
      rw [entered, hj, NameMap.get?_insert] at hy
      split at hy
      · rename_i hname
        exact hname ▸ hvisible
      · exact sound.visible other y hy
  cases h with
  | refused h => exact sound
  | found h hvisible hfound => exact sound
  | made object h hvisible hfree => exact hentered rfl hvisible
  | registered hvisible hfree => exact hentered rfl hvisible
  | removed name =>
    constructor
    · exact sound.unpoisoned
    · intro other x hx
      rw [NameMap.get?_erase] at hx
      split at hx
      · cases hx
      · exact sound.visible other x hx
  | told reply hnames hremove => exact sound

theorem get_store (h : Settles i r result i') {kind : Kind} (handle : Handle kind)
    (hin : Metric.IsIn i.store ⟨kind, handle⟩) :
    i'.store.get handle = i.store.get handle ∧ Metric.IsIn i'.store ⟨kind, handle⟩ := by
  cases h with
  | refused h => exact ⟨rfl, hin⟩
  | found h hvisible hfound => exact ⟨rfl, hin⟩
  | made object h hvisible hfree =>
    exact ⟨i.store.get_add object handle hin, Nat.lt_of_lt_of_le hin (i.store.size_objects_add_le object kind)⟩
  | registered hvisible hfree => exact ⟨rfl, hin⟩
  | removed name => exact ⟨rfl, hin⟩
  | told reply hnames hremove => exact ⟨rfl, hin⟩

theorem get?_of_names (h : Settles i r result i') {name : String} (hname : r.names? = some name) {reply : Reply}
    (hreply : result = .ok reply) :
    ∃ x, reply = .metric x ∧ i'.registry.metrics.get? name = some x ∧
      ∀ kind, r.obtains = some (name, kind) → x.kind = kind := by
  cases h with
  | refused h => cases hreply
  | found h hvisible hfound =>
    cases hreply
    have hsame := (Request.names?_of_obtains h).symm.trans hname
    cases hsame
    refine ⟨_, rfl, hfound, ?_⟩
    intro kind hkind
    cases h.symm.trans hkind
    rfl
  | made object h hvisible hfree =>
    cases hreply
    have hsame := (Request.names?_of_obtains h).symm.trans hname
    cases hsame
    refine ⟨_, rfl, NameMap.get?_insert_self _ _ _, ?_⟩
    intro kind hkind
    cases h.symm.trans hkind
    rfl
  | registered hvisible hfree =>
    cases hreply
    cases hname
    exact ⟨_, rfl, NameMap.get?_insert_self _ _ _, nofun⟩
  | removed other => cases hname
  | told reply hnames hremove => cases hnames.symm.trans hname

end Settles

inductive Move
  | call (r : Request)
  | change (c : Change)

namespace Move

def after (i : Instruments) : Move → Instruments
  | call r => (r.perform i).state
  | change c => (Instruments.onStore c.perform i).state

def Frees (i : Instruments) (name : String) : Move → Prop
  | call r => r = .remove name ∧ (r.perform i).result = .ok (.removed true)
  | change _ => False

theorem isSound_after {i : Instruments} (sound : IsSound i) (move : Move) : IsSound (move.after i) := by
  cases move with
  | call r =>
    obtain ⟨result, i', ⟨-, hstate⟩, hsettles⟩ := perform_settles sound.unpoisoned r
    rw [after, hstate]
    exact hsettles.isSound sound
  | change c => exact ⟨sound.unpoisoned, sound.visible⟩

theorem get?_after {i : Instruments} (sound : IsSound i) (move : Move) {name : String} {x : Metric}
    (hx : i.registry.metrics.get? name = some x) :
    (move.after i).registry.metrics.get? name = some x ∨
      move.Frees i name ∧ (move.after i).registry.metrics.get? name = none := by
  cases move with
  | call r =>
    obtain ⟨result, i', ⟨hresult, hstate⟩, hsettles⟩ := perform_settles sound.unpoisoned r
    rw [after, hstate]
    rcases hsettles.get?_eq_none_or_some hx with hkept | ⟨hremove, hremoved, hnone⟩
    · exact .inl hkept
    · exact .inr ⟨⟨hremove, hresult.trans hremoved⟩, hnone⟩
  | change c => exact .inl hx

theorem get_gauge_after {i : Instruments} (sound : IsSound i) (move : Move) (h : Handle .gauge)
    (hin : Metric.IsIn i.store ⟨.gauge, h⟩) :
    (move.after i).store.get h = i.store.get h ∧ Metric.IsIn (move.after i).store ⟨.gauge, h⟩ := by
  cases move with
  | call r =>
    obtain ⟨result, i', ⟨-, hstate⟩, hsettles⟩ := perform_settles sound.unpoisoned r
    rw [after, hstate]
    exact hsettles.get_store h hin
  | change c =>
    exact ⟨c.get_gauge_perform i.store h hin, Nat.lt_of_lt_of_le hin (c.size_objects_perform_le i.store .gauge)⟩

end Move

def through (i : Instruments) (moves : List Move) : Instruments := moves.foldl Move.after i

def Frees (i : Instruments) (name : String) : List Move → Prop
  | [] => False
  | move :: rest => move.Frees i name ∨ Frees (move.after i) name rest

theorem isSound_through {i : Instruments} (sound : IsSound i) (moves : List Move) : IsSound (through i moves) := by
  induction moves generalizing i with
  | nil => exact sound
  | cons move rest ih => exact ih (move.isSound_after sound)

theorem get?_through {i : Instruments} (sound : IsSound i) {name : String} {x : Metric} (moves : List Move)
    (hx : i.registry.metrics.get? name = some x) (hkept : ¬ Frees i name moves) :
    (through i moves).registry.metrics.get? name = some x := by
  induction moves generalizing i with
  | nil => exact hx
  | cons move rest ih =>
    rcases move.get?_after sound hx with hstill | ⟨hfrees, -⟩
    · exact ih (move.isSound_after sound) hstill (fun h => hkept (.inr h))
    · exact absurd (.inl hfrees) hkept

theorem get?_through_of_present {i : Instruments} (sound : IsSound i) {name : String} {x : Metric} (moves : List Move)
    (hx : i.registry.metrics.get? name = some x)
    (hpresent : ∀ before, before <+: moves → ((through i before).registry.metrics.get? name).isSome = true) :
    (through i moves).registry.metrics.get? name = some x := by
  induction moves generalizing i with
  | nil => exact hx
  | cons move rest ih =>
    rcases move.get?_after sound hx with hstill | ⟨-, hnone⟩
    · refine ih (move.isSound_after sound) hstill ?_
      intro before hbefore
      exact hpresent (move :: before) (List.cons_prefix_cons.mpr ⟨rfl, hbefore⟩)
    · have hfirst := hpresent [move] (List.cons_prefix_cons.mpr ⟨rfl, List.nil_prefix⟩)
      have hgone : ((through i [move]).registry.metrics.get? name).isSome = false := by
        rw [through, List.foldl_cons, List.foldl_nil, hnone]
        rfl
      rw [hgone] at hfirst
      cases hfirst

theorem get_gauge_through {i : Instruments} (sound : IsSound i) (moves : List Move) (h : Handle .gauge)
    (hin : Metric.IsIn i.store ⟨.gauge, h⟩) :
    (through i moves).store.get h = i.store.get h ∧ Metric.IsIn (through i moves).store ⟨.gauge, h⟩ := by
  induction moves generalizing i with
  | nil => exact ⟨rfl, hin⟩
  | cons move rest ih =>
    obtain ⟨hsame, hstill⟩ := move.get_gauge_after sound h hin
    obtain ⟨hrest, hlast⟩ := ih (move.isSound_after sound) hstill
    exact ⟨hrest.trans hsame, hlast⟩

theorem names_end {i : Instruments} (sound : IsSound i) :
    ∃ ns : List String, (names i).Ends (.ok ns) i ∧ (size i).Ends (.ok ns.length) i ∧ ns.Pairwise (· < ·) ∧
      ∀ name, name ∈ ns ↔ (i.registry.metrics.get? name).isSome = true := by
  have hmetrics := metricsByName_of_sound i sound.unpoisoned
  refine ⟨i.registry.metrics.names, .bind_ok hmetrics ⟨rfl, rfl⟩, .bind_ok hmetrics ⟨?_, rfl⟩,
    i.registry.metrics.pairwise_names, ?_⟩
  · rw [NameMap.names, List.length_map]
    rfl
  · intro name
    rw [NameMap.mem_names_iff, Option.isSome_iff_exists]

theorem get?_of_reply {i : Instruments} (sound : IsSound i) {r : Request} {name : String} {x : Metric}
    (hname : r.names? = some name) (hreply : (r.perform i).result = .ok (.metric x)) :
    (r.perform i).state.registry.metrics.get? name = some x := by
  obtain ⟨result, i', ⟨hresult, hstate⟩, hsettles⟩ := perform_settles sound.unpoisoned r
  obtain ⟨y, hy, hstored, -⟩ := hsettles.get?_of_names hname (hresult.symm.trans hreply)
  cases hy
  rw [hstate]
  exact hstored

theorem reply_eq_of_get? {i : Instruments} (sound : IsSound i) {r : Request} {name : String} {x y : Metric}
    (hname : r.names? = some name) (hx : i.registry.metrics.get? name = some x)
    (hreply : (r.perform i).result = .ok (.metric y)) : y = x := by
  have hy := get?_of_reply sound hname hreply
  rcases Move.get?_after sound (.call r) hx with hkept | ⟨⟨rfl, -⟩, -⟩
  · exact Option.some.inj (hy.symm.trans hkept)
  · cases hname

theorem gauge_of_free {i : Instruments} (sound : IsSound i) {name : String} {probe : ProbeId} {h : Handle .gauge}
    (hfree : i.registry.metrics.get? name = none)
    (hreply : ((Request.gauge name probe).perform i).result = .ok (.metric ⟨.gauge, h⟩)) :
    ¬ Text.IsBlank name ∧ ((Request.gauge name probe).perform i).state.store.get h = ⟨probe⟩ ∧
      Metric.IsIn ((Request.gauge name probe).perform i).state.store ⟨.gauge, h⟩ := by
  have hvisible : ¬ Text.IsBlank name := by
    intro hblank
    have hrefused := (perform_of_refuses sound.unpoisoned (.blank (r := Request.gauge name probe) rfl hblank)).1
    cases hrefused.symm.trans hreply
  have hmade := @getOrCreate_of_free i name .gauge (fun _ => ⟨probe⟩) sound.unpoisoned hvisible hfree
  obtain ⟨hresult, hstate⟩ : ((Request.gauge name probe).perform i).Ends _ _ := .bind_ok hmade ⟨rfl, rfl⟩
  have hhandle := hresult.symm.trans hreply
  cases hhandle
  rw [hstate]
  exact ⟨hvisible, i.store.get_add_self _, i.store.isIn_add _⟩

theorem category_of_refuses {i : Instruments} {r : Request} {cause : Failure} (h : Refuses i r cause) :
    cause.category = if cause = .blankName then .invalidArgument else .registry := by
  cases h with
  | blank hname hblank => rfl
  | otherKind hobtains hvisible hfound hkind => rfl
  | taken hvisible hfound => rfl

structure Orderly (i : Instruments) : Prop where
  names : ∃ ns : List String, (names i).Ends (.ok ns) i ∧ (size i).Ends (.ok ns.length) i ∧ ns.Pairwise (· < ·) ∧
    ∀ name, name ∈ ns ↔ (i.registry.metrics.get? name).isSome = true
  visible (name : String) (x : Metric) : i.registry.metrics.get? name = some x → ¬ Text.IsBlank name
  fails_iff (r : Request) (fault : Fault) :
    (r.perform i).result = .error fault ↔ ∃ cause, fault = .failure cause ∧ Refuses i r cause
  category (r : Request) (cause : Failure) :
    Refuses i r cause → cause.category = if cause = .blankName then .invalidArgument else .registry
  unchanged (r : Request) (fault : Fault) : (r.perform i).result = .error fault → (r.perform i).state = i
  stored (r : Request) (name : String) (reply : Reply) : r.names? = some name → (r.perform i).result = .ok reply →
    ∃ x, reply = .metric x ∧ (r.perform i).state.registry.metrics.get? name = some x ∧
      ∀ kind, r.obtains = some (name, kind) → x.kind = kind
  same_object (a b : Request) (between : List Move) (name : String) (x y : Metric) :
    a.names? = some name → b.names? = some name → (a.perform i).result = .ok (.metric x) →
      ¬ Frees (a.perform i).state name between →
      (b.perform (through (a.perform i).state between)).result = .ok (.metric y) → y = x
  same_kind (moves : List Move) (name : String) (x y : Metric) : i.registry.metrics.get? name = some x →
    (∀ before, before <+: moves → ((through i before).registry.metrics.get? name).isSome = true) →
    (through i moves).registry.metrics.get? name = some y → y.kind = x.kind
  first_probe (name : String) (probe other : ProbeId) (h : Handle .gauge) (between : List Move) :
    let first := (Request.gauge name probe).perform i
    let second := (Request.gauge name other).perform (through first.state between)
    i.registry.metrics.get? name = none → first.result = .ok (.metric ⟨.gauge, h⟩) → ¬ Frees first.state name between →
      second.result = .ok (.metric ⟨.gauge, h⟩) ∧ second.state.store.get h = ⟨probe⟩

theorem orderly_of_isSound {i : Instruments} (sound : IsSound i) : Orderly i := by
  constructor
  · exact names_end sound
  · exact sound.visible
  · intro r fault
    constructor
    · intro herror
      obtain ⟨result, i', ⟨hresult, -⟩, hsettles⟩ := perform_settles sound.unpoisoned r
      rw [herror] at hresult
      subst hresult
      cases hsettles with
      | refused h => exact ⟨_, rfl, h⟩
    · rintro ⟨cause, rfl, hrefuses⟩
      exact (perform_of_refuses sound.unpoisoned hrefuses).1
  · intro r cause
    exact category_of_refuses
  · intro r fault herror
    obtain ⟨result, i', ⟨hresult, hstate⟩, hsettles⟩ := perform_settles sound.unpoisoned r
    rw [herror] at hresult
    subst hresult
    cases hsettles with
    | refused h => exact hstate
  · intro r name reply hname hreply
    obtain ⟨result, i', ⟨hresult, hstate⟩, hsettles⟩ := perform_settles sound.unpoisoned r
    rw [hstate]
    exact hsettles.get?_of_names hname (hresult.symm.trans hreply)
  · intro a b between name x y ha hb hx hkept hy
    have hafter := Move.isSound_after sound (.call a)
    have hstored := get?_through hafter between (get?_of_reply sound ha hx) hkept
    exact reply_eq_of_get? (isSound_through hafter between) hb hstored hy
  · intro moves name x y hx hpresent hy
    rw [get?_through_of_present sound moves hx hpresent] at hy
    cases hy
    rfl
  · intro name probe other h between first second hfree hfirst hkept
    have hafter : IsSound first.state := Move.isSound_after sound (.call (.gauge name probe))
    obtain ⟨hvisible, hprobe, hin⟩ := gauge_of_free sound hfree hfirst
    have hstored := get?_through hafter between (get?_of_reply sound rfl hfirst) hkept
    have hsecond : second.Ends (.ok (.metric ⟨.gauge, h⟩)) (through first.state between) :=
      .bind_ok (getOrCreate_of_found _ (isSound_through hafter between).unpoisoned hvisible hstored) ⟨rfl, rfl⟩
    refine ⟨hsecond.1, ?_⟩
    rw [hsecond.2, (get_gauge_through hafter between h hin).1]
    exact hprobe

/-- Whatever clients of one registry have done, in whatever order their moves came. -/
theorem orderly_through (store : Store) (moves : List Move) : Orderly (through { store } moves) := by
  apply orderly_of_isSound
  apply isSound_through
  constructor
  · rfl
  · intro name x hx
    cases hx

end Registry

end MetricReporting
