import Mathlib.Algebra.Order.BigOperators.Group.List
import Mathlib.Algebra.Order.Ring.Nat
import Mathlib.Data.List.Induction
import DecisionRules.Event.Bus

/-! Subscriptions and their handles. A subscriber hears of an event once for each subscription whose handle was not
called, unless a handle is called again while an equal subscription stands: that call ends the other one. -/
namespace DecisionRules.EventBus
variable {η : Type} [DecidableEq η]

/-- What callers do with a bus. A handle is told by the place of its subscription among all that were made. -/
inductive Deed (η : Type) where
  | subscribe (s : Subscription η)
  | unsubscribe (handle : Nat)
  | publish (e : Event)

structure Ticket (η : Type) where
  subscription : Subscription η
  ended : Bool

structure Desk (η : Type) where
  bus : EventBus η
  tickets : List (Ticket η)

def Ticket.finish (t : Ticket η) : Ticket η := { t with ended := true }

def Ticket.stands (t : Ticket η) (s : Subscription η) : Bool := !t.ended && decide (t.subscription = s)

def Ticket.wants (t : Ticket η) (kind : EventKind) (h : η) : Bool :=
  !t.ended && decide (t.subscription.subscriber = h) && t.subscription.kind.all (·.covers kind)

namespace Desk

def advance (d : Desk η) : Deed η → Desk η
  | .subscribe s => ⟨d.bus.subscribe s, d.tickets ++ [⟨s, false⟩]⟩
  | .unsubscribe i =>
    match d.tickets[i]? with
    | some t => ⟨d.bus.unsubscribe t.subscription, d.tickets.modify i Ticket.finish⟩
    | none => d
  | .publish _ => d

def run (deeds : List (Deed η)) : Desk η := deeds.foldl advance ⟨.empty, []⟩

/-- How often a subscriber is to hear of an event: once for each of its subscriptions that cover it and whose handle
was not called. -/
def owed (d : Desk η) (kind : EventKind) (h : η) : Nat := d.tickets.countP (·.wants kind h)

def standing (d : Desk η) (s : Subscription η) : Nat := d.tickets.countP (·.stands s)

/-- Is a handle called again, while an equal subscription stands? -/
def Stray (d : Desk η) : Deed η → Prop
  | .unsubscribe i => ∃ t, d.tickets[i]? = some t ∧ t.ended = true ∧ 0 < d.standing t.subscription
  | _ => False

end Desk

/-! The lists of a bus -/

def subscribersOf {η : Type} (byKind : List (EventKind × List η)) (kind : EventKind) : List η :=
  match byKind with
  | [] => []
  | (k, subscribers) :: rest => if k = kind then subscribers else subscribersOf rest kind

/-- The subscribers of one kind of event, or those of everything. -/
def listOf {η : Type} (b : EventBus η) : Option EventKind → List η
  | some kind => subscribersOf b.byKind kind
  | none => b.everything

def seated (b : EventBus η) (s : Subscription η) : Nat := (b.listOf s.kind).count s.subscriber

def Keyed {η : Type} (b : EventBus η) : Prop := (b.byKind.map Prod.fst).Nodup

omit [DecidableEq η] in
theorem subscribersAlter (change : List η → List η) (k : EventKind) (byKind : List (EventKind × List η))
    (kind : EventKind) : subscribersOf (alter change k byKind) kind =
      if k = kind then change (subscribersOf byKind kind) else subscribersOf byKind kind := by
  induction byKind with
  | nil => simp [alter, subscribersOf]
  | cons entry rest ih =>
    obtain ⟨j, subscribers⟩ := entry
    by_cases here : j = k
    · subst here
      by_cases same : j = kind <;> simp [alter, subscribersOf, same]
    · by_cases same : j = kind
      · subst same
        simp [alter, subscribersOf, here, Ne.symm here]
      · simp [alter, subscribersOf, here, same, ih]

theorem subscribersErase (k : EventKind) (h : η) (byKind : List (EventKind × List η)) (kind : EventKind) :
    subscribersOf (byKind.map fun (j, subscribers) => (j, if j = k then subscribers.erase h else subscribers)) kind =
      if k = kind then (subscribersOf byKind kind).erase h else subscribersOf byKind kind := by
  induction byKind with
  | nil => simp [subscribersOf]
  | cons entry rest ih =>
    obtain ⟨j, subscribers⟩ := entry
    by_cases same : j = kind
    · subst same
      by_cases here : j = k
      · simp [subscribersOf, here]
      · simp [subscribersOf, here, Ne.symm here]
    · simp [subscribersOf, same, ih]

omit [DecidableEq η] in
theorem listSubscribe (b : EventBus η) (s : Subscription η) (kind : Option EventKind) :
    (b.subscribe s).listOf kind = if s.kind = kind then b.listOf kind ++ [s.subscriber] else b.listOf kind := by
  obtain ⟨own, h⟩ := s
  cases own <;> cases kind <;> simp [listOf, subscribe, subscribersAlter]

theorem listUnsubscribe (b : EventBus η) (s : Subscription η) (kind : Option EventKind) :
    (b.unsubscribe s).listOf kind = if s.kind = kind then (b.listOf kind).erase s.subscriber else b.listOf kind := by
  obtain ⟨own, h⟩ := s
  cases own <;> cases kind <;> simp [listOf, unsubscribe, subscribersErase]

theorem seatedSubscribe (b : EventBus η) (s u : Subscription η) :
    (b.subscribe s).seated u = b.seated u + if s = u then 1 else 0 := by
  obtain ⟨kind, h⟩ := s
  obtain ⟨kind', h'⟩ := u
  rw [seated, listSubscribe]
  by_cases same : kind = kind'
  · by_cases alike : h = h' <;> simp [seated, same, alike, List.count_append]
  · simp [seated, same]

theorem seatedUnsubscribe (b : EventBus η) (s u : Subscription η) :
    (b.unsubscribe s).seated u = b.seated u - if s = u then 1 else 0 := by
  obtain ⟨kind, h⟩ := s
  obtain ⟨kind', h'⟩ := u
  rw [seated, listUnsubscribe]
  by_cases same : kind = kind'
  · by_cases alike : h = h'
    · simp [seated, same, alike]
    · simp [seated, same, alike, List.count_erase_of_ne (Ne.symm alike)]
  · simp [seated, same]

section
variable {η : Type} {byKind : List (EventKind × List η)} {k kind : EventKind}

theorem subscribersFresh (fresh : k ∉ byKind.map Prod.fst) : subscribersOf byKind k = [] := by
  induction byKind with
  | nil => rfl
  | cons entry rest ih =>
    obtain ⟨first, others⟩ := not_or.mp (mt List.mem_cons.mpr fresh)
    rw [subscribersOf, if_neg (Ne.symm first), ih others]

theorem subscribersMember (unique : (byKind.map Prod.fst).Nodup) {subscribers : List η}
    (member : (k, subscribers) ∈ byKind) : subscribersOf byKind k = subscribers := by
  induction byKind with
  | nil => cases member
  | cons entry rest ih =>
    obtain ⟨fresh, unique⟩ := List.nodup_cons.mp unique
    rcases List.mem_cons.mp member with rfl | member
    · exact if_pos rfl
    · have other : entry.1 ≠ k := fun same => fresh (same ▸ List.mem_map_of_mem member)
      rw [subscribersOf, if_neg other, ih unique member]

theorem alterKeys (change : List η → List η) : (alter change k byKind).map Prod.fst =
    if k ∈ byKind.map Prod.fst then byKind.map Prod.fst else byKind.map Prod.fst ++ [k] := by
  induction byKind with
  | nil => rfl
  | cons entry rest ih =>
    obtain ⟨j, subscribers⟩ := entry
    by_cases here : j = k
    · simp [alter, here]
    · rw [alter, if_neg here, List.map_cons, ih, List.map_cons]
      by_cases known : k ∈ rest.map Prod.fst
      · rw [if_pos known, if_pos (List.mem_cons_of_mem _ known)]
      · have unknown : k ∉ j :: rest.map Prod.fst := by simpa [Ne.symm here] using known
        rw [if_neg known, if_neg unknown]
        rfl

end

theorem Keyed.subscribe {η : Type} {b : EventBus η} (keyed : b.Keyed) (s : Subscription η) :
    (b.subscribe s).Keyed := by
  unfold EventBus.subscribe
  split
  · rename_i k _
    rw [Keyed, alterKeys]
    split
    · exact keyed
    · rename_i fresh
      exact List.nodup_append.mpr ⟨keyed, by simp, fun a known c last same =>
        fresh (List.mem_singleton.mp last ▸ same ▸ known)⟩
  · exact keyed

theorem Keyed.unsubscribe {b : EventBus η} (keyed : b.Keyed) (s : Subscription η) : (b.unsubscribe s).Keyed := by
  unfold EventBus.unsubscribe
  split
  · rw [Keyed, List.map_map]
    exact keyed
  · exact keyed

/-- There is nothing to end for who is not on the list. -/
theorem unsubscribeAbsent {b : EventBus η} (keyed : b.Keyed) {s : Subscription η} (absent : b.seated s = 0) :
    b.unsubscribe s = b := by
  obtain ⟨own, h⟩ := s
  have absent := List.count_eq_zero.mp absent
  cases own with
  | none => exact congrArg (EventBus.mk b.byKind) (List.erase_of_not_mem absent)
  | some k =>
    refine congrArg (EventBus.mk · b.everything) ((List.map_congr_left fun entry member => ?_).trans (List.map_id _))
    by_cases here : entry.1 = k
    · have there : h ∉ entry.2 := by
        have listed : (k, entry.2) ∈ b.byKind := here ▸ member
        exact subscribersMember keyed listed ▸ absent
      simp [← here, List.erase_of_not_mem there]
    · simp [here]

/-! Who hears of an event -/

/-- The lists whose subscribers hear of an event of the kind. -/
def covering (kind : EventKind) : List (Option EventKind) :=
  if kind = .common then [some .common, none] else [some .common, some kind, none]

theorem coveredCount {byKind : List (EventKind × List η)} (unique : (byKind.map Prod.fst).Nodup)
    (kind : EventKind) (h : η) : ((byKind.filter fun entry => entry.1.covers kind).flatMap Prod.snd).count h =
      (subscribersOf byKind .common).count h +
        if kind = .common then 0 else (subscribersOf byKind kind).count h := by
  induction byKind with
  | nil => simp [subscribersOf]
  | cons entry rest ih =>
    obtain ⟨j, subscribers⟩ := entry
    obtain ⟨fresh, unique⟩ := List.nodup_cons.mp unique
    have nothing : subscribersOf rest j = [] := subscribersFresh fresh
    have whole : (((j, subscribers) :: rest).filter fun entry => entry.1.covers kind).flatMap Prod.snd =
        (if j.covers kind then subscribers else []) ++
          (rest.filter fun entry => entry.1.covers kind).flatMap Prod.snd := by
      rw [List.filter_cons]
      split <;> rfl
    rw [whole, List.count_append, ih unique]
    by_cases common : j = .common
    · subst common
      by_cases wide : kind = .common
      · simp [EventKind.covers, subscribersOf, nothing, wide]
      · simp [EventKind.covers, subscribersOf, nothing, wide, Ne.symm wide]
    · by_cases own : j = kind
      · subst own
        simp [EventKind.covers, subscribersOf, nothing, common, Nat.add_comm]
      · by_cases wide : kind = .common <;> simp [EventKind.covers, subscribersOf, common, own, wide]

theorem recipientsSeated {b : EventBus η} (keyed : b.Keyed) (kind : EventKind) (h : η) :
    (b.recipients kind).count h = ((covering kind).map fun k => b.seated ⟨k, h⟩).sum := by
  have counted := coveredCount keyed kind h
  have whole : (b.recipients kind).count h = _ + b.everything.count h := List.count_append
  rw [whole]
  refine (congrArg (· + _) counted).trans ?_
  unfold covering
  split
  · simp [seated, listOf]
  · simp [seated, listOf, Nat.add_assoc]

/-! Tickets -/

theorem finishCount {tickets : List (Ticket η)} {i : Nat} {t : Ticket η} (found : tickets[i]? = some t)
    (s : Subscription η) : (tickets.modify i Ticket.finish).countP (·.stands s) + (if t.stands s then 1 else 0) =
      tickets.countP (·.stands s) := by
  induction tickets generalizing i with
  | nil => simp at found
  | cons u rest ih =>
    cases i with
    | zero =>
      cases Option.some.inj found
      simp [List.countP_cons, Ticket.finish, Ticket.stands]
    | succ i =>
      have rest := ih (i := i) found
      rw [List.modify_succ_cons, List.countP_cons, List.countP_cons]
      omega

omit [DecidableEq η] in
theorem finishAgain {tickets : List (Ticket η)} {i : Nat} {t : Ticket η} (found : tickets[i]? = some t)
    (ended : t.ended = true) : tickets.modify i Ticket.finish = tickets := by
  have same : t.finish = t := by
    obtain ⟨s, _⟩ := t
    cases ended
    rfl
  refine List.ext_getElem? fun j => ?_
  rw [List.getElem?_modify]
  by_cases here : i = j
  · subst here
    simp [found, same]
  · simp [here]

namespace Desk
variable {d : Desk η}

theorem owedStanding (d : Desk η) (kind : EventKind) (h : η) :
    d.owed kind h = ((covering kind).map fun k => d.standing ⟨k, h⟩).sum := by
  unfold owed standing
  induction d.tickets with
  | nil => unfold covering; split <;> rfl
  | cons t rest ih =>
    obtain ⟨⟨own, g⟩, ended⟩ := t
    have one : ((covering kind).map fun k => if (Ticket.mk ⟨own, g⟩ ended).stands ⟨k, h⟩ then 1 else 0).sum =
        if (Ticket.mk ⟨own, g⟩ ended).wants kind h then 1 else 0 := by
      cases ended
      · by_cases who : g = h
        · cases own with
          | none => unfold covering; split <;> simp [Ticket.stands, Ticket.wants, who]
          | some k =>
            by_cases wide : kind = .common
            · simp [covering, Ticket.stands, Ticket.wants, EventKind.covers, who, wide]
            · by_cases common : k = .common
              · subst common
                simp [covering, Ticket.stands, Ticket.wants, EventKind.covers, who, wide, Ne.symm wide]
              · by_cases same : k = kind <;>
                  simp [covering, Ticket.stands, Ticket.wants, EventKind.covers, who, wide, common, same]
        · unfold covering; split <;> simp [Ticket.stands, Ticket.wants, who]
      · unfold covering; split <;> simp [Ticket.stands, Ticket.wants]
    simp only [List.countP_cons, List.sum_map_add, ih, one]

/-- The bus has no more subscribers than subscriptions stand. -/
structure Sound (d : Desk η) : Prop where
  keyed : d.bus.Keyed
  below : ∀ s, d.bus.seated s ≤ d.standing s

def Square (d : Desk η) : Prop := ∀ s, d.bus.seated s = d.standing s

/-- What a deed does to the seats and to the standing subscriptions. -/
theorem advanceCases (d : Desk η) (deed : Deed η) :
    (∃ s, deed = .subscribe s ∧ ∀ u, (d.advance deed).bus.seated u = d.bus.seated u + (if s = u then 1 else 0) ∧
      (d.advance deed).standing u = d.standing u + if s = u then 1 else 0) ∨
    (∃ i t, deed = .unsubscribe i ∧ d.tickets[i]? = some t ∧ ∀ u,
      (d.advance deed).bus.seated u = d.bus.seated u - (if t.subscription = u then 1 else 0) ∧
      (d.advance deed).standing u + (if t.stands u then 1 else 0) = d.standing u) ∨
    (∀ i, deed = .unsubscribe i → d.tickets[i]? = none) ∧ d.advance deed = d := by
  cases deed with
  | subscribe s =>
    refine .inl ⟨s, rfl, fun u => ⟨seatedSubscribe d.bus s u, ?_⟩⟩
    simp [advance, standing, List.countP_append, Ticket.stands]
  | unsubscribe i =>
    cases found : d.tickets[i]? with
    | none =>
      refine .inr (.inr ⟨?_, by simp [advance, found]⟩)
      rintro _ ⟨⟩
      exact found
    | some t =>
      refine .inr (.inl ⟨i, t, rfl, found, fun u => ?_⟩)
      simp only [advance, found]
      exact ⟨seatedUnsubscribe d.bus t.subscription u, finishCount found u⟩
  | publish e => exact .inr (.inr ⟨nofun, rfl⟩)

theorem Sound.advance (sound : d.Sound) (deed : Deed η) : (d.advance deed).Sound := by
  refine ⟨?_, fun u => ?_⟩
  · cases deed with
    | subscribe s => exact sound.keyed.subscribe s
    | unsubscribe i =>
      cases found : d.tickets[i]? with
      | none => simpa [Desk.advance, found] using sound.keyed
      | some t => simpa [Desk.advance, found] using sound.keyed.unsubscribe t.subscription
    | publish e => exact sound.keyed
  · have below := sound.below u
    rcases d.advanceCases deed with ⟨s, rfl, effect⟩ | ⟨i, t, rfl, found, effect⟩ | ⟨_, same⟩
    · obtain ⟨seats, stands⟩ := effect u
      rw [seats, stands]
      exact Nat.add_le_add_right below _
    · obtain ⟨seats, stands⟩ := effect u
      have own : (if t.stands u then 1 else 0) ≤ if t.subscription = u then 1 else 0 := by
        by_cases same : t.subscription = u <;> simp [Ticket.stands, same]
        split <;> omega
      omega
    · exact same.symm ▸ below

theorem Square.advance (square : d.Square) {deed : Deed η} (tame : ¬ d.Stray deed) : (d.advance deed).Square := by
  intro u
  have equal := square u
  rcases d.advanceCases deed with ⟨s, rfl, effect⟩ | ⟨i, t, rfl, found, effect⟩ | ⟨_, same⟩
  · obtain ⟨seats, stands⟩ := effect u
    rw [seats, stands, equal]
  · obtain ⟨seats, stands⟩ := effect u
    by_cases own : t.subscription = u
    · cases ended : t.ended
      · have counted : t.stands u = true := by simp [Ticket.stands, ended, own]
        rw [if_pos own] at seats
        rw [if_pos counted] at stands
        omega
      · have alone : ¬ 0 < d.standing u := fun more => tame ⟨t, found, ended, own.symm ▸ more⟩
        omega
    · have counted : ¬ t.stands u = true := by simp [Ticket.stands, own]
      rw [if_neg own] at seats
      rw [if_neg counted] at stands
      omega
  · exact same.symm ▸ equal

/-- A stray call takes the seat of another subscription, which still stands. -/
theorem Stray.breaks {deed : Deed η} (stray : d.Stray deed) (square : d.Square) : ¬ (d.advance deed).Square := by
  intro after
  cases deed with
  | subscribe s => exact stray
  | publish e => exact stray
  | unsubscribe i =>
    obtain ⟨t, found, ended, more⟩ := stray
    have seats := seatedUnsubscribe d.bus t.subscription t.subscription
    have stands := finishAgain found ended
    have fewer : (d.advance (.unsubscribe i)).bus.seated t.subscription < d.standing t.subscription := by
      simp only [advance, found, seats, if_pos, square t.subscription]
      omega
    have equal : (d.advance (.unsubscribe i)).standing t.subscription = d.standing t.subscription := by
      simp only [standing, advance, found, stands]
    exact absurd (after t.subscription) (equal ▸ fewer.ne)

theorem runSnoc (deeds : List (Deed η)) (deed : Deed η) : run (deeds ++ [deed]) = (run deeds).advance deed := by
  simp [run, List.foldl_append]

theorem runSound (deeds : List (Deed η)) : (run deeds).Sound := by
  induction deeds using List.reverseRecOn with
  | nil => exact ⟨List.nodup_nil, fun ⟨kind, h⟩ => by cases kind <;> exact Nat.le_refl 0⟩
  | append_singleton past deed ih => exact runSnoc past deed ▸ ih.advance deed

theorem heardBelow (sound : d.Sound) (kind : EventKind) (h : η) : (d.bus.recipients kind).count h ≤ d.owed kind h := by
  rw [recipientsSeated sound.keyed, owedStanding]
  exact List.sum_le_sum fun k _ => sound.below ⟨k, h⟩

theorem kindOccurs (kind : EventKind) : ∃ e : Event, e.kind = kind := by
  cases kind with
  | common => exact ⟨.common, rfl⟩
  | ruleCreated => exact ⟨.ruleCreated "" "", rfl⟩
  | ruleUpdated => exact ⟨.ruleUpdated "" [], rfl⟩
  | ruleDeleted => exact ⟨.ruleDeleted "", rfl⟩
  | notificationRequested => exact ⟨.notificationRequested none "" "" none "" "" [], rfl⟩
  | workflowRequested => exact ⟨.workflowRequested none "" "" [], rfl⟩
  | ruleMatched => exact ⟨.ruleMatched "" "" "" "" false, rfl⟩
  | actionExecuted => exact ⟨.actionExecuted none "" "" 0, rfl⟩
  | actionFailed => exact ⟨.actionFailed none "" "" none "", rfl⟩
  | evaluationCompleted => exact ⟨.evaluationCompleted "" ⟨0, 0, 0, 0, 0⟩ 0, rfl⟩
  | engineError => exact ⟨.engineError none none none "", rfl⟩

/-- Everybody hears of every event as often as owed exactly when each standing subscription has its seat. -/
theorem squareHeard (sound : d.Sound) :
    (∀ kind h, (d.bus.recipients kind).count h = d.owed kind h) ↔ d.Square := by
  constructor
  · rintro heard ⟨own, h⟩
    obtain ⟨kind, covered⟩ : ∃ kind, own ∈ covering kind := by
      cases own with
      | none => exact ⟨.common, by decide⟩
      | some k => exact ⟨k, by cases k <;> decide⟩
    have total := heard kind h
    rw [recipientsSeated sound.keyed, owedStanding] at total
    have below := sound.below ⟨own, h⟩
    refine below.eq_of_not_lt fun less => total.not_lt ?_
    exact List.sum_lt_sum _ _ (fun k _ => sound.below ⟨k, h⟩) ⟨own, covered, less⟩
  · intro square kind h
    rw [recipientsSeated sound.keyed, owedStanding]
    exact congrArg List.sum (List.map_congr_left fun k _ => square ⟨k, h⟩)

/-- No handle is called again while an equal subscription stands. -/
def Careful (deeds : List (Deed η)) : Prop :=
  ∀ past deed since, deeds = past ++ deed :: since → ¬ (run past).Stray deed

theorem Careful.front {past since : List (Deed η)} (careful : Careful (past ++ since)) : Careful past :=
  fun first deed more split => careful first deed (more ++ since) (by simp [split])

theorem Careful.square {deeds : List (Deed η)} (careful : Careful deeds) : (run deeds).Square := by
  induction deeds using List.reverseRecOn with
  | nil => exact fun ⟨kind, h⟩ => by cases kind <;> rfl
  | append_singleton past deed ih =>
    exact runSnoc past deed ▸ (ih careful.front).advance (careful past deed [] rfl)

/-- However subscriptions are made and handles called, nobody hears of an event more often than once for each of its
own subscriptions that stand, and everybody hears of every event just as often all along exactly when no handle is
called again while an equal subscription stands. Such a call has no effect otherwise. -/
theorem subscriptionsIndependent (deeds : List (Deed η)) :
    (∀ now context fails e h,
      ((run deeds).bus.publish now context fails e).1.count h ≤ (run deeds).owed e.kind h) ∧
    ((∀ past since, deeds = past ++ since → ∀ now context fails e h,
      ((run past).bus.publish now context fails e).1.count h = (run past).owed e.kind h) ↔ Careful deeds) ∧
    ∀ i t, (run deeds).tickets[i]? = some t → t.ended = true → ¬ (run deeds).Stray (.unsubscribe i) →
      (run deeds).advance (.unsubscribe i) = run deeds := by
  refine ⟨fun now context fails e h => heardBelow (runSound deeds) e.kind h, ⟨fun heard => ?_, fun careful => ?_⟩, ?_⟩
  · have square : ∀ past since, deeds = past ++ since → (run past).Square := fun past since split =>
      (squareHeard (runSound past)).mp fun kind h => by
        obtain ⟨e, rfl⟩ := kindOccurs kind
        exact heard past since split 0 .none (fun _ => none) e h
    intro past deed since split stray
    refine stray.breaks (square past (deed :: since) split) ?_
    exact runSnoc past deed ▸ square (past ++ [deed]) since (by simp [split])
  · rintro past since rfl now context fails e h
    exact (squareHeard (runSound past)).mpr careful.front.square e.kind h
  · intro i t found ended tame
    have alone : (run deeds).standing t.subscription = 0 :=
      Nat.eq_zero_of_not_pos fun more => tame ⟨t, found, ended, more⟩
    have absent : (run deeds).bus.seated t.subscription = 0 :=
      Nat.le_zero.mp (alone ▸ (runSound deeds).below t.subscription)
    simp only [advance, found, unsubscribeAbsent (runSound deeds).keyed absent, finishAgain found ended]

/-- Somebody subscribes twice and calls the first handle twice: nobody hears of anything any more, although one of the
subscriptions stands. -/
theorem secondCallEndsAnother :
    let auditor : Subscription String := ⟨some .ruleDeleted, "auditor"⟩
    let deeds : List (Deed String) := [.subscribe auditor, .subscribe auditor, .unsubscribe 0]
    (run deeds).owed .ruleDeleted "auditor" = 1 ∧
    ((run deeds).bus.publish 0 .none (fun _ => none) (.ruleDeleted "a")).1 = ["auditor"] ∧
    (run (deeds ++ [.unsubscribe 0])).owed .ruleDeleted "auditor" = 1 ∧
    ((run (deeds ++ [.unsubscribe 0])).bus.publish 0 .none (fun _ => none) (.ruleDeleted "a")).1 = [] := by
  decide

end Desk
end DecisionRules.EventBus
