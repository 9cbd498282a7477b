import TelegramPub.Ports.PtsBatches
import TelegramPub.Ports.StaleUpdates

/-!
# Every run applies the chain in order

While every update of the chain advances the `pts`, a run has applied a first part of the
chain, and the actor holds what has come of the rest.  The next update of the chain is not
among what a waiting actor holds: a check would have found it.
-/

namespace TelegramPub.Ports.PtsBatches

open Ports.ApplyUpdates Ports.ApplyUpdatesSafety Ports.StaleUpdates

/-- Every update is known and advances the `pts`. -/
def Advances (unknown : Update → Bool) (us : List Update) : Prop :=
  ∀ u ∈ us, 0 < u.ptsCount ∧ unknown (Update.fields u) = false

section Rest

variable {unknown : Update → Bool} {rest us : List Update} {pts : Int}

theorem Advances.lt (h : Advances unknown rest) (hrest : PtsContinues pts rest) :
    ∀ u ∈ rest, pts < u.pts := by
  intro u hu
  have hstart := PtsContinues.start_le hrest u hu
  have hcount := (h u hu).1
  omega

/-- Updates that continue the chain are copies of its next part. -/
theorem eq_next_part (hpos : ∀ v ∈ rest, 0 < v.ptsCount) :
    PtsContinues pts rest → PtsContinues pts us → Among us rest →
    ∃ now later, rest = now ++ later ∧ us.map Update.fields = now.map Update.fields ∧
      ptsReachedBy pts us = ptsReachedBy pts now := by
  induction us generalizing pts rest with
  | nil => exact fun _ _ _ => ⟨[], rest, rfl, rfl, rfl⟩
  | cons u us ih =>
    intro hrest hus hamong
    obtain ⟨hstart, _, hus⟩ := hus
    obtain ⟨v, hv, hfields⟩ := hamong u (.head _)
    obtain ⟨hpts, hcount⟩ := pts_of_fields hfields
    cases rest with
    | nil => cases hv
    | cons r rest =>
      obtain ⟨hrstart, hrle, hrest⟩ := hrest
      have hrpos := hpos r (.head _)
      have hvr : v = r := by
        rcases List.mem_cons.1 hv with heq | hv
        · exact heq
        · have hlate := PtsContinues.start_le hrest v hv
          omega
      subst hvr
      have hamong' : Among us rest := by
        intro x hx
        obtain ⟨y, hy, hyx⟩ := hamong x (.tail _ hx)
        obtain ⟨hypts, hycount⟩ := pts_of_fields hyx
        rcases List.mem_cons.1 hy with rfl | hy
        · have hlate := PtsContinues.start_le hus x hx
          omega
        · exact ⟨y, hy, hyx⟩
      rw [← hpts] at hus
      obtain ⟨now, later, hsplit, hmap, hreached⟩ := ih
        (fun x hx => hpos x (.tail _ hx)) hrest hus hamong'
      refine ⟨v :: now, later, by rw [hsplit]; rfl, ?_, ?_⟩
      · rw [List.map_cons, List.map_cons, hmap, hfields]
      · show ptsReachedBy u.pts us = ptsReachedBy v.pts now
        rw [← hpts]
        exact hreached

end Rest

/-- What the run has done: `done` of the chain is applied, and `rest` is not. -/
structure Done (db : DatabaseState) (chain done rest : List Update) (w : World) : Prop where
  split : above db.pts chain = done ++ rest
  stored : w.db.pts = ptsReachedBy db.pts done
  applied : appliedFields w = done.map Update.fields

/-- An application of `now`, the next part of the chain. -/
structure Applying (pts : Int) (now : List Update) (app : Application) : Prop where
  app_eq : app = application app.updates 0 0
  ne_nil : app.updates ≠ []
  fields : app.updates.map Update.fields = now.map Update.fields
  continues : PtsContinues pts app.updates
  above : ∀ u ∈ app.updates, pts < u.pts

/-- What the actor holds, when `come` has been delivered. -/
structure ActorHolds (chain come rest : List Update) (w : World) (actor : Actor) : Prop where
  among : Among (carried actor) chain
  idle : actor.applying = none → actor.waitingForApplyUpdatesQueue = [] ∧
    (∀ u ∈ rest, Holds come u → Holds (collected actor.updateList) u) ∧
    (w.executing = some (.tryUpdates .withPts) →
      ∀ next ∈ rest.head?, ¬ Holds (collected actor.updateList) next)
  busy : ∀ app, actor.applying = some app →
    w.executing = some (.tryUpdates .withPts) ∧ ∃ now later, rest = now ++ later ∧
      Applying w.db.pts now app ∧ ∀ u ∈ later, Holds come u → Holds (carried actor) u

structure Progress (db : DatabaseState) (chain come done rest : List Update) (w : World) :
    Prop where
  part : Done db chain done rest w
  quiet : w.executing = none ∨ w.executing = some (.tryUpdates .withPts)
  gone : w.registered .withPts = none → w.executing = none ∧ ∀ u ∈ rest, ¬ Holds come u
  actor : ∀ actor, w.registered .withPts = some actor → ActorHolds chain come rest w actor

section Steps

variable {unknown : Update → Bool} {db : DatabaseState} {chain come done rest : List Update}
  {w : World} {actor : Actor}

theorem PtsChain.above_continues (h : PtsChain db chain) :
    PtsContinues db.pts (above db.pts chain) :=
  PtsContinues.above_of_mem h.continues (le_refl _) (.inl rfl)

theorem Done.rest_continues (h : Done db chain done rest w) (hchain : PtsChain db chain) :
    PtsContinues w.db.pts rest := by
  have habove := hchain.above_continues
  rw [h.split, PtsContinues.append] at habove
  rw [h.stored]
  exact habove.2

theorem Done.rest_advances (h : Done db chain done rest w)
    (hadv : Advances unknown (above db.pts chain)) : Advances unknown rest := by
  intro u hu
  exact hadv u (by rw [h.split]; exact List.mem_append_right _ hu)

theorem Done.le_stored (h : Done db chain done rest w) (hchain : PtsChain db chain) :
    db.pts ≤ w.db.pts ∧ ∀ u ∈ done, u.pts ≤ w.db.pts := by
  have habove := hchain.above_continues
  rw [h.split, PtsContinues.append] at habove
  rw [h.stored]
  exact Continues.le_reachedBy habove.1

/-- A copy of an update of the chain above the stored `pts` is one of the rest. -/
theorem Done.among_rest (h : Done db chain done rest w) (hchain : PtsChain db chain)
    {us : List Update} (hamong : Among us chain) (habove : ∀ u ∈ us, w.db.pts < u.pts) :
    Among us rest := by
  intro u hu
  obtain ⟨v, hv, hfields⟩ := hamong u hu
  have hpts := (pts_of_fields hfields).1
  have hu := habove u hu
  obtain ⟨hle, hdone⟩ := h.le_stored hchain
  have hmem : v ∈ above db.pts chain := mem_above.2 ⟨hv, by omega⟩
  rw [h.split, List.mem_append] at hmem
  refine ⟨v, hmem.resolve_left fun hvdone => ?_, hfields⟩
  have hvle := hdone v hvdone
  omega

theorem Done.head_not_held (h : Done db chain done rest w) (hchain : PtsChain db chain)
    (hadv : Advances unknown (above db.pts chain))
    (hamong : Among (collected actor.updateList) chain) (hnone : inOrder w.db actor = []) :
    ∀ next ∈ rest.head?, ¬ Holds (collected actor.updateList) next := by
  intro next hnext hheld
  obtain ⟨copy, hcopy, hfields⟩ := holds_iff.1 hheld
  obtain ⟨hpts, hcount⟩ := pts_of_fields hfields
  have hrest := h.rest_continues hchain
  have hpos := h.rest_advances hadv
  obtain ⟨later, rfl⟩ := List.head?_eq_some_iff.1 hnext
  obtain ⟨hstart, _, hlater⟩ := hrest
  have hlt := (hpos next (.head _)).1
  have hstored : 0 ≤ w.db.pts := hchain.stored.trans (h.le_stored hchain).1
  have hcontinues : w.db.pts + copy.ptsCount = copy.pts := by omega
  refine checkLoop_finds hcontinues hstored (by omega) (sortedUpdates actor)
    (pairwise_insertionSort_pts _) (mem_sortedUpdates.2 hcopy) ?_ hnone
  intro u hu habove
  have hone : Among [u] (next :: later) := h.among_rest hchain
    (fun x hx => hamong x (by rw [List.mem_singleton.1 hx]; exact mem_sortedUpdates.1 hu))
    (fun x hx => by rw [List.mem_singleton.1 hx]; exact habove)
  obtain ⟨v, hv, hvu⟩ := hone u (List.mem_singleton_self u)
  obtain ⟨hvpts, hvcount⟩ := pts_of_fields hvu
  rcases List.mem_cons.1 hv with rfl | hv
  · omega
  · have hlate := PtsContinues.start_le hlater v hv
    have hvpos := (hpos v (.tail _ hv)).1
    omega

theorem collected_subset_carried (actor : Actor) :
    ∀ u ∈ collected actor.updateList, u ∈ carried actor := by
  intro u hu
  unfold carried
  rw [collected_append]
  exact List.mem_append_left _ hu

theorem Done.conclude (h : Done db chain done rest w) (hchain : PtsChain db chain)
    (hadv : Advances unknown (above db.pts chain))
    (hexecutes : w.executing = some (.tryUpdates .withPts))
    (hwaiting : actor.waitingForApplyUpdatesQueue = []) (hidle : actor.applying = none)
    (hamong : Among (collected actor.updateList) chain)
    (hheld : ∀ u ∈ rest, Holds come u → Holds (collected actor.updateList) u) :
    Progress db chain come done rest
      (w.conclude .withPts (givesUp unknown) (check w.db actor .withPts)) := by
  have hlt := (h.rest_advances hadv).lt (h.rest_continues hchain)
  cases hcheck : check w.db actor .withPts with
  | completed =>
    obtain ⟨_, hstale⟩ := check_completed hcheck
    refine ⟨⟨h.split, h.stored, h.applied⟩, .inl ?_, fun _ => ⟨?_, fun u hu hcome => ?_⟩, ?_⟩
    · simp [World.conclude, World.completeAction, hexecutes]
    · simp [World.conclude, World.completeAction, hexecutes]
    · obtain ⟨v, hv, hfields⟩ := holds_iff.1 (hheld u hu hcome)
      have hpts := (pts_of_fields hfields).1
      have hv := hstale v hv
      have hu := hlt u hu
      omega
    · intro actor' hreg'
      simp [World.conclude, World.completeAction] at hreg'
  | waiting actor' =>
    obtain ⟨hnone, hnarrows, hkept⟩ := check_waiting hcheck
    have hsub : ∀ u ∈ carried actor', u ∈ collected actor.updateList := by
      intro u hu
      unfold carried at hu
      rw [hnarrows.waiting, hwaiting, List.append_nil] at hu
      exact collected_subset hnarrows.updateList u hu
    refine ⟨⟨h.split, h.stored, h.applied⟩, .inr hexecutes, ?_, ?_⟩
    · intro hnone'
      simp [World.conclude, World.setActor] at hnone'
    · intro actor'' hreg''
      simp only [World.conclude, setActor_registered, Option.some.injEq] at hreg''
      subst hreg''
      refine ⟨hamong.of_subset hsub, fun _ => ⟨?_, ?_, fun _ next hnext hheld' => ?_⟩, ?_⟩
      · rw [hnarrows.waiting, hwaiting]
      · intro u hu hcome
        obtain ⟨v, hv, hfields⟩ := holds_iff.1 (hheld u hu hcome)
        have hpts := (pts_of_fields hfields).1
        have hu := hlt u hu
        exact holds_iff.2 ⟨v, hkept v hv (by omega), hfields⟩
      · refine h.head_not_held hchain hadv hamong hnone next hnext ?_
        obtain ⟨v, hv, hfields⟩ := holds_iff.1 hheld'
        exact holds_iff.2 ⟨v, hsub v (collected_subset_carried _ v hv), hfields⟩
      · intro app happ
        rw [hnarrows.applying, hidle] at happ
        cases happ
  | applying actor' app =>
    obtain ⟨hsome, happ, hnarrows, hkept⟩ := check_applying hcheck
    have hupdates : app.updates = inOrder w.db actor := by rw [happ]; rfl
    have hcontinues : PtsContinues w.db.pts (inOrder w.db actor) :=
      inOrder_continues (hchain.stored.trans (h.le_stored hchain).1)
    have hin : Among (inOrder w.db actor) rest := h.among_rest hchain
      (hamong.of_subset fun u hu => (inOrder_subset hu).1) fun u hu => (inOrder_subset hu).2
    obtain ⟨now, later, hsplit, hfields, _⟩ := eq_next_part
      (fun v hv => (h.rest_advances hadv v hv).1) (h.rest_continues hchain) hcontinues hin
    have hknown : givesUp unknown app.updates = false := by
      rw [hupdates, givesUp_fields, hfields, ← givesUp_fields]
      unfold givesUp
      rw [List.any_eq_false]
      intro u hu
      rw [(h.rest_advances hadv u (by rw [hsplit]; exact List.mem_append_left _ hu)).2]
      simp
    have hsub : ∀ u ∈ carried actor', u ∈ collected actor.updateList := by
      intro u hu
      unfold carried at hu
      rw [hnarrows.waiting, hwaiting, List.append_nil] at hu
      exact collected_subset hnarrows.updateList u hu
    have hconclude : w.conclude .withPts (givesUp unknown) (.applying actor' app) =
        w.setActor .withPts (some { actor' with applying := some app }) := by
      simp [World.conclude, hknown]
    rw [hconclude]
    refine ⟨⟨h.split, h.stored, h.applied⟩, .inr hexecutes, ?_, ?_⟩
    · intro hnone
      simp [World.setActor] at hnone
    · intro actor'' hreg''
      rw [setActor_registered, Option.some.injEq] at hreg''
      subst hreg''
      refine ⟨hamong.of_subset hsub, fun hnone => (by cases hnone), fun app' happ' => ?_⟩
      cases happ'
      refine ⟨hexecutes, now, later, hsplit, ⟨?_, ?_, ?_, ?_, ?_⟩, fun u hu hcome => ?_⟩
      · rw [hupdates]
        exact happ
      · rw [hupdates]
        exact hsome
      · rw [hupdates]
        exact hfields
      · rw [hupdates]
        exact hcontinues
      · rw [hupdates]
        exact fun u hu => (inOrder_subset hu).2
      · have hurest : u ∈ rest := by
          rw [hsplit]
          exact List.mem_append_right _ hu
        obtain ⟨v, hv, hvu⟩ := holds_iff.1 (hheld u hurest hcome)
        have hvpts := (pts_of_fields hvu).1
        have hupts := hlt u hurest
        refine holds_iff.2 ⟨v, collected_subset_carried _ v (hkept v hv (by omega) ?_), hvu⟩
        intro hvin
        have hvnow : Update.fields v ∈ now.map Update.fields := by
          rw [← hfields]
          exact List.mem_map_of_mem hvin
        have hnodup : ((above db.pts chain).map Update.fields).Nodup :=
          hchain.copies.sublist (List.filter_sublist.map _)
        rw [h.split, hsplit, List.map_append, List.map_append] at hnodup
        have hdisjoint := (List.nodup_append.1 (List.nodup_append.1 hnodup).2.1).2.2
        exact hdisjoint _ hvnow _ (List.mem_map_of_mem hu) hvu

theorem Done.congr {w' : World} (h : Done db chain done rest w) (hdb : w'.db = w.db)
    (hlog : w'.log = w.log) : Done db chain done rest w' where
  split := h.split
  stored := by rw [hdb, h.stored]
  applied := by
    unfold appliedFields
    rw [hlog]
    exact h.applied

theorem holds_stamped (next : Nat) (batches : List Updates) (u : Update) :
    Holds (collected (stamp next batches).1) u ↔ Holds (collected batches) u := by
  unfold Holds
  rw [(stamped batches next).fields]

theorem among_stamped (next : Nat) {batches : List Updates} (h : Among (collected batches) chain) :
    Among (collected (stamp next batches).1) chain := by
  intro u hu
  obtain ⟨v, hv, hfields⟩ := (stamped batches next).exists_fields hu
  obtain ⟨x, hx, hxv⟩ := h v hv
  exact ⟨x, hx, hxv.trans hfields⟩

theorem carried_queue (actor : Actor) (batches : List Updates) :
    carried { actor with
      waitingForApplyUpdatesQueue := actor.waitingForApplyUpdatesQueue ++ batches } =
      carried actor ++ collected batches := by
  unfold carried
  rw [← List.append_assoc, collected_append]

theorem Progress.receive (h : Progress db chain come done rest w) (hchain : PtsChain db chain)
    (hadv : Advances unknown (above db.pts chain)) {batches : List Updates}
    (hbatches : Among (collected batches) chain) :
    Progress db chain (come ++ collected batches) done rest
      (step w (Delivery.event unknown (.receive batches))) := by
  have hamong := among_stamped w.nextObject hbatches
  have hnew := holds_stamped w.nextObject batches
  show Progress db chain _ done rest (World.requestActor { w with nextObject := _ } .withPts
    (stamp w.nextObject batches).1 (givesUp unknown))
  generalize (stamp w.nextObject batches).2 = nextObject at *
  generalize (stamp w.nextObject batches).1 = stamps at *
  cases hreg : w.registered .withPts with
  | none =>
    obtain ⟨hexecuting, hcome⟩ := h.gone hreg
    rw [requestActor_new (w := { w with nextObject }) hreg]
    refine ⟨h.part.congr rfl rfl, .inl hexecuting, ?_, ?_⟩
    · intro hnone
      simp [World.setActor] at hnone
    · intro actor hactor
      rw [setActor_registered, Option.some.injEq] at hactor
      subst hactor
      refine ⟨?_, fun _ => ⟨rfl, fun u hu hheld => ?_, fun hexecutes => ?_⟩,
        fun app happ => (by cases happ)⟩
      · simpa [carried] using hamong
      · rcases holds_append.1 hheld with hold | hnow
        · exact absurd hold (hcome u hu)
        · exact (hnew u).2 hnow
      · have hexecuting' : w.executing = some (.tryUpdates .withPts) := hexecutes
        rw [hexecuting] at hexecuting'
        cases hexecuting'
  | some actor =>
    have hholds := h.actor actor hreg
    cases happlying : actor.applying with
    | some app =>
      obtain ⟨hexecutes, now, later, hsplit, happ, hlater⟩ := hholds.busy app happlying
      rw [requestActor_applying (w := { w with nextObject }) hreg happlying]
      refine ⟨h.part.congr rfl rfl, .inr hexecutes, ?_, ?_⟩
      · intro hnone
        simp [World.setActor] at hnone
      · intro actor' hactor'
        rw [setActor_registered, Option.some.injEq] at hactor'
        subst hactor'
        refine ⟨?_, fun hnone => ?_, fun app' happ' => ?_⟩
        · rw [carried_queue]
          intro u hu
          rcases List.mem_append.1 hu with hu | hu
          · exact hholds.among u hu
          · exact hamong u hu
        · have hnone' : actor.applying = none := hnone
          rw [happlying] at hnone'
          cases hnone'
        · have happ'' : actor.applying = some app' := happ'
          rw [happlying, Option.some.injEq] at happ''
          subst happ''
          refine ⟨hexecutes, now, later, hsplit, happ, fun u hu hheld => ?_⟩
          rw [carried_queue, holds_append]
          rcases holds_append.1 hheld with hold | hnow
          · exact .inl (hlater u hu hold)
          · exact .inr ((hnew u).2 hnow)
    | none =>
      obtain ⟨hqueue, hheld, _⟩ := hholds.idle happlying
      have hcollected : collected (actor.updateList ++ stamps) =
          collected actor.updateList ++ collected stamps := collected_append _ _
      have hamong' : Among (collected (actor.updateList ++ stamps)) chain := by
        rw [hcollected]
        intro u hu
        rcases List.mem_append.1 hu with hu | hu
        · exact hholds.among u (collected_subset_carried actor u hu)
        · exact hamong u hu
      have hheld' : ∀ u ∈ rest, Holds (come ++ collected batches) u →
          Holds (collected (actor.updateList ++ stamps)) u := by
        intro u hu hcome
        rw [hcollected, holds_append]
        rcases holds_append.1 hcome with hold | hnow
        · exact .inl (hheld u hu hold)
        · exact .inr ((hnew u).2 hnow)
      rcases h.quiet with hexecuting | hexecuting
      · have hother : w.executing ≠ some (.tryUpdates .withPts) := by
          rw [hexecuting]
          exact fun h => by cases h
        rw [requestActor_waiting (w := { w with nextObject }) hreg happlying hother]
        refine ⟨h.part.congr rfl rfl, .inl hexecuting, ?_, ?_⟩
        · intro hnone
          simp [World.setActor] at hnone
        · intro actor' hactor'
          rw [setActor_registered, Option.some.injEq] at hactor'
          subst hactor'
          refine ⟨?_, fun _ => ⟨hqueue, hheld', fun hexecutes => ?_⟩, fun app happ => ?_⟩
          · simpa [carried, hqueue] using hamong'
          · have hexecutes' : w.executing = some (.tryUpdates .withPts) := hexecutes
            rw [hexecuting] at hexecutes'
            cases hexecutes'
          · have happ' : actor.applying = some app := happ
            rw [happlying] at happ'
            cases happ'
      · rw [requestActor_executing (w := { w with nextObject }) hreg happlying hexecuting]
        exact Done.conclude (h.part.congr rfl rfl) hchain hadv hexecuting hqueue happlying
          hamong' hheld'

theorem Progress.execute (h : Progress db chain come done rest w) (hchain : PtsChain db chain)
    (hadv : Advances unknown (above db.pts chain)) :
    Progress db chain come done rest (step w (Delivery.event unknown .execute)) := by
  show Progress db chain come done rest (w.execute .withPts (givesUp unknown))
  unfold World.execute
  split
  · rename_i actor hexecuting hreg
    have hholds := h.actor actor hreg
    have hidle : actor.applying = none := by
      cases happlying : actor.applying with
      | none => rfl
      | some app =>
        have hexecutes := (hholds.busy app happlying).1
        rw [hexecuting] at hexecutes
        cases hexecutes
    obtain ⟨hqueue, hheld, _⟩ := hholds.idle hidle
    exact Done.conclude (h.part.congr rfl rfl) hchain hadv rfl hqueue hidle
      (hholds.among.of_subset (collected_subset_carried actor)) hheld
  · exact h

theorem Applying.store {pts : Int} {now : List Update} {app : Application}
    (h : Applying pts now app) (hpts : pts = w.db.pts) (hstored : 0 ≤ w.db.pts)
    (hhas : ∀ u ∈ app.updates, u.hasPts = true) (hno : ∀ u ∈ app.updates, u.hasQts = false) :
    ((w.store .withPts app).db.pts = ptsReachedBy w.db.pts app.updates) ∧
      appliedFields (w.store .withPts app) = appliedFields w ++ now.map Update.fields := by
  subst hpts
  constructor
  · have hstore := ptsCounter_lawful.store_eq w.db app.updates hstored h.ne_nil
      (fun u hu => by simp [ptsCounter, hhas u hu, hno u hu]) h.above h.continues
    show (app.store .withPts w.db).pts = _
    rw [h.app_eq]
    exact congrArg DatabaseState.pts hstore
  · unfold appliedFields World.store
    rw [appliedPts_append, appliedPts_applied, List.filter_eq_self.2 hhas, List.map_append,
      h.fields]

theorem Progress.applyCompleted (h : Progress db chain come done rest w)
    (hchain : PtsChain db chain) (hadv : Advances unknown (above db.pts chain)) :
    ∃ done' rest', Progress db chain come done' rest'
      (step w (Delivery.event unknown .applyCompleted)) := by
  show ∃ done' rest', Progress db chain come done' rest'
    (w.applyCompleted .withPts (givesUp unknown))
  unfold World.applyCompleted
  cases hreg : w.registered .withPts with
  | none => exact ⟨done, rest, h⟩
  | some actor =>
    have hholds := h.actor actor hreg
    cases happlying : actor.applying with
    | none =>
      simp only [happlying]
      exact ⟨done, rest, h⟩
    | some app =>
      simp only [happlying]
      obtain ⟨hexecutes, now, later, hsplit, happ, hlater⟩ := hholds.busy app happlying
      have hrest := h.part.rest_continues hchain
      have hcopy : Among app.updates chain := by
        intro u hu
        obtain ⟨v, hv, hvu⟩ := among_of_fields happ.fields u hu
        have hvabove : v ∈ above db.pts chain := by
          rw [h.part.split, hsplit]
          exact List.mem_append_right _ (List.mem_append_left _ hv)
        exact ⟨v, (mem_above.1 hvabove).1, hvu⟩
      obtain ⟨hpts, happlied⟩ := happ.store rfl
        (hchain.stored.trans (h.part.le_stored hchain).1) (hcopy.hasPts hchain.hasPts)
        (hcopy.noQts hchain.noQts)
      have hreached : ptsReachedBy w.db.pts app.updates = ptsReachedBy w.db.pts now := by
        obtain ⟨now', later', hsplit', hfields', hreached'⟩ := eq_next_part
          (fun v hv => ((h.part.rest_advances hadv) v hv).1) hrest happ.continues
          (h.part.among_rest hchain hcopy happ.above)
        have hlen : now.length = now'.length := by
          have hl := congrArg List.length (happ.fields.symm.trans hfields')
          simpa using hl
        rw [hsplit] at hsplit'
        rw [hreached', (List.append_inj hsplit' hlen).1]
      have hdone : Done db chain (done ++ now) later ((w.store .withPts app).setActor .withPts
          (some actor.resume)) :=
        { split := by rw [h.part.split, hsplit, List.append_assoc]
          stored := by
            show (w.store .withPts app).db.pts = _
            rw [hpts, hreached, ptsReachedBy_append, ← h.part.stored]
          applied := by
            show appliedFields (w.store .withPts app) = _
            rw [happlied, h.part.applied, List.map_append] }
      refine ⟨done ++ now, later, Done.conclude hdone hchain hadv hexecutes rfl rfl
        (hholds.among.of_subset fun u hu => hu) fun u hu hcome => hlater u hu hcome⟩

end Steps

end TelegramPub.Ports.PtsBatches
