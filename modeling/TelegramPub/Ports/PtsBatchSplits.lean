import TelegramPub.Ports.PtsBatchRuns

/-!
# Which chains do not depend on their batches

An update with `pts_count` 0 is applied in the check that reaches its `pts`, or, when it
comes later, never: it is not above the stored `pts` then.  An update that makes processing
give up takes with it what would have been applied in the same check.  A chain without
such updates is applied in any batches; and so, in a way, is a chain that cannot begin.
-/

namespace TelegramPub.Ports.PtsBatches

open Ports.ApplyUpdates Ports.ApplyUpdatesSafety

variable {unknown : Update → Bool} {db : DatabaseState} {chain : List Update}

theorem received_cons (delivery : Delivery) (deliveries : List Delivery) :
    received (delivery :: deliveries) = delivery.updates ++ received deliveries := rfl

theorem among_of_perm {us : List Update}
    (h : (us.map Update.fields).Perm (chain.map Update.fields)) : Among us chain := by
  intro u hu
  have hmem := h.mem_iff.1 (List.mem_map_of_mem (f := Update.fields) hu)
  exact List.mem_map.1 hmem

theorem holds_of_perm {us : List Update}
    (h : (us.map Update.fields).Perm (chain.map Update.fields)) : ∀ u ∈ chain, Holds us u :=
  fun _ hu => h.mem_iff.2 (List.mem_map_of_mem hu)

/-! ## Chains that advance -/

variable {w : World}

theorem Progress.deliver {come done rest : List Update}
    (h : Progress db chain come done rest w) (hchain : PtsChain db chain)
    (hadv : Advances unknown (above db.pts chain)) (deliveries : List Delivery) :
    Among (received deliveries) chain → ∃ done' rest',
      Progress db chain (come ++ received deliveries) done' rest'
        (deliver unknown w deliveries) := by
  induction deliveries generalizing come done rest w with
  | nil =>
    intro _
    exact ⟨done, rest, by simpa [received, PtsBatches.deliver] using h⟩
  | cons delivery deliveries ih =>
    intro hamong
    rw [received_cons] at hamong ⊢
    have hlater : Among (received deliveries) chain :=
      hamong.of_subset fun u hu => List.mem_append_right _ hu
    rw [← List.append_assoc]
    cases delivery with
    | receive batches =>
      exact ih (h.receive hchain hadv
        (hamong.of_subset fun u hu => List.mem_append_left _ hu)) hlater
    | execute =>
      have hnothing : come ++ Delivery.updates .execute = come := List.append_nil come
      rw [hnothing]
      exact ih (h.execute hchain hadv) hlater
    | applyCompleted =>
      have hnothing : come ++ Delivery.updates .applyCompleted = come := List.append_nil come
      rw [hnothing]
      obtain ⟨done', rest', hstep⟩ := h.applyCompleted hchain hadv
      exact ih hstep hlater

theorem progress_initial (db : DatabaseState) (chain : List Update) :
    Progress db chain [] [] (above db.pts chain) { db } where
  part := ⟨rfl, rfl, rfl⟩
  quiet := .inl rfl
  gone := fun _ => ⟨rfl, fun u _ hheld => by cases hheld⟩
  actor := fun actor hactor => by cases hactor

/-- When everything has come and nothing can happen, the whole chain is applied. -/
theorem Progress.rest_eq_nil {come done rest : List Update}
    (h : Progress db chain come done rest w) (hcome : ∀ u ∈ chain, Holds come u)
    (hsettled : Settled w) : rest = [] := by
  have hall : ∀ u ∈ rest, Holds come u := by
    intro u hu
    have habove : u ∈ above db.pts chain := by
      rw [h.part.split]
      exact List.mem_append_right _ hu
    exact hcome u (mem_above.1 habove).1
  cases rest with
  | nil => rfl
  | cons next rest =>
    have hnext := hall next (.head _)
    cases hreg : w.registered .withPts with
    | none => exact absurd hnext ((h.gone hreg).2 next (.head _))
    | some actor =>
      obtain ⟨hidle, hexecutes⟩ := hsettled actor hreg
      obtain ⟨_, hheld, hhead⟩ := (h.actor actor hreg).idle hidle
      exact absurd (hheld next (.head _) hnext) (hhead hexecutes next rfl)

theorem settled_of_advances (hchain : PtsChain db chain)
    (hadv : Advances unknown (above db.pts chain)) {deliveries : List Delivery}
    (hperm : ((received deliveries).map Update.fields).Perm (chain.map Update.fields))
    (hsettled : Settled (deliver unknown { db } deliveries)) :
    appliedFields (deliver unknown { db } deliveries) =
        (above db.pts chain).map Update.fields ∧
      (deliver unknown { db } deliveries).db.pts =
        ptsReachedBy db.pts (above db.pts chain) := by
  obtain ⟨done, rest, h⟩ := (progress_initial db chain).deliver hchain hadv deliveries
    (among_of_perm hperm)
  have hrest := h.rest_eq_nil (holds_of_perm hperm) hsettled
  have hsplit := h.part.split
  rw [hrest, List.append_nil] at hsplit
  rw [hsplit]
  exact ⟨h.part.applied, h.part.stored⟩

/-! ## Chains that cannot begin -/

/-- The update that the chain begins with makes processing give up. -/
def Blocked (unknown : Update → Bool) (db : DatabaseState) (chain : List Update) : Prop :=
  ∃ u ∈ chain, db.pts < u.pts ∧ u.pts - u.ptsCount = db.pts ∧ unknown (Update.fields u) = true

/-- Only one update above the stored `pts` starts there. -/
theorem PtsChain.first_unique (h : PtsChain db chain) {u v : Update} (hu : u ∈ chain)
    (hv : v ∈ chain) (huabove : db.pts < u.pts) (hvabove : db.pts < v.pts)
    (hustart : u.pts - u.ptsCount = db.pts) (hvstart : v.pts - v.ptsCount = db.pts) : u = v := by
  have hcontinues := h.above_continues
  have humem : u ∈ above db.pts chain := mem_above.2 ⟨hu, huabove⟩
  have hvmem : v ∈ above db.pts chain := mem_above.2 ⟨hv, hvabove⟩
  generalize hA : above db.pts chain = A at *
  cases A with
  | nil => cases humem
  | cons r rest =>
    obtain ⟨hrstart, _, hrest⟩ := hcontinues
    have hr : db.pts < r.pts := (mem_above.1 (hA ▸ List.mem_cons_self)).2
    have hfirst : ∀ x ∈ r :: rest, x.pts - x.ptsCount = db.pts → x = r := by
      intro x hx hstart
      rcases List.mem_cons.1 hx with heq | hx
      · exact heq
      · have hlate := PtsContinues.start_le hrest x hx
        omega
    rw [hfirst u humem hustart, hfirst v hvmem hvstart]

/-- Nothing has been applied, and nothing is being applied. -/
structure Stuck (db : DatabaseState) (chain : List Update) (w : World) : Prop where
  stored : w.db.pts = db.pts
  applied : appliedFields w = []
  actor : ∀ actor, w.registered .withPts = some actor →
    actor.applying = none ∧ Among (carried actor) chain

theorem Stuck.setActor (h : Stuck db chain w) {actor : Actor}
    (hidle : actor.applying = none) (hamong : Among (carried actor) chain) :
    Stuck db chain (w.setActor .withPts (some actor)) where
  stored := h.stored
  applied := h.applied
  actor := fun actor' hactor' => by
    rw [setActor_registered, Option.some.injEq] at hactor'
    subst hactor'
    exact ⟨hidle, hamong⟩

theorem Stuck.of_gone {w w' : World} (h : Stuck db chain w) (hdb : w'.db = w.db)
    (hlog : w'.log = w.log) (hgone : w'.registered .withPts = none) : Stuck db chain w' where
  stored := by rw [hdb, h.stored]
  applied := by
    unfold appliedFields
    rw [hlog]
    exact h.applied
  actor := fun actor hactor => by
    rw [hgone] at hactor
    cases hactor

theorem Stuck.conclude (h : Stuck db chain w) (hchain : PtsChain db chain)
    (hblocked : Blocked unknown db chain) {actor : Actor} (hidle : actor.applying = none)
    (hamong : Among (carried actor) chain) :
    Stuck db chain (w.conclude .withPts (givesUp unknown) (check w.db actor .withPts)) := by
  have hsub : ∀ {actor' : Actor}, Narrows actor' actor → Among (carried actor') chain := by
    intro actor' hnarrows
    refine hamong.of_subset fun u hu => ?_
    unfold carried at hu ⊢
    rw [hnarrows.waiting] at hu
    exact collected_subset (hnarrows.updateList.append (List.Sublist.refl _)) u hu
  cases hcheck : check w.db actor .withPts with
  | completed =>
    refine h.of_gone rfl rfl ?_
    simp [World.conclude, World.completeAction]
  | waiting actor' =>
    obtain ⟨_, hnarrows, _⟩ := check_waiting hcheck
    exact h.setActor (by rw [hnarrows.applying, hidle]) (hsub hnarrows)
  | applying actor' app =>
    obtain ⟨hsome, happ, hnarrows, _⟩ := check_applying hcheck
    have hupdates : app.updates = inOrder w.db actor := by rw [happ]; rfl
    have hgives : givesUp unknown app.updates = true := by
      rw [hupdates]
      have hcontinues : PtsContinues w.db.pts (inOrder w.db actor) :=
        inOrder_continues (h.stored ▸ hchain.stored)
      cases hfound : inOrder w.db actor with
      | nil => exact absurd hfound hsome
      | cons x later =>
        rw [hfound] at hcontinues
        have hx : x ∈ inOrder w.db actor := by
          rw [hfound]
          exact .head _
        obtain ⟨hheld, habove⟩ := inOrder_subset hx
        obtain ⟨v, hv, hvx⟩ := hamong x (collected_subset_carried actor x hheld)
        obtain ⟨hpts, hcount⟩ := pts_of_fields hvx
        obtain ⟨u, hu, huabove, hustart, hunknown⟩ := hblocked
        have hstart := hcontinues.1
        rw [h.stored] at hstart habove
        have heq : u = v := hchain.first_unique hu hv huabove (by omega) hustart (by omega)
        unfold givesUp
        rw [List.any_cons, ← hvx, ← heq, hunknown]
        rfl
    have hconclude : w.conclude .withPts (givesUp unknown) (.applying actor' app) =
        (w.setActor .withPts (some actor')).fail .withPts := by
      simp [World.conclude, hgives]
    rw [hconclude]
    refine h.of_gone rfl rfl ?_
    simp [World.fail, World.completeAction]

theorem Stuck.event (h : Stuck db chain w) (hchain : PtsChain db chain)
    (hblocked : Blocked unknown db chain) {delivery : Delivery}
    (hupdates : Among delivery.updates chain) :
    Stuck db chain (step w (delivery.event unknown)) := by
  cases delivery with
  | receive batches =>
    have hamong := among_stamped w.nextObject hupdates
    show Stuck db chain (World.requestActor { w with nextObject := _ } .withPts
      (stamp w.nextObject batches).1 (givesUp unknown))
    generalize (stamp w.nextObject batches).2 = nextObject at *
    generalize (stamp w.nextObject batches).1 = stamps at *
    have hw : Stuck db chain { w with nextObject } := ⟨h.stored, h.applied, h.actor⟩
    cases hreg : w.registered .withPts with
    | none =>
      rw [requestActor_new (w := { w with nextObject }) hreg]
      exact hw.setActor rfl (by simpa [carried] using hamong)
    | some actor =>
      obtain ⟨hidle, hheld⟩ := h.actor actor hreg
      have hjoined : Among (carried { actor with updateList := actor.updateList ++ stamps })
          chain := by
        intro u hu
        simp only [carried, collected_append, List.mem_append] at hu
        rcases hu with (hu | hu) | hu
        · exact hheld u (collected_subset_carried actor u hu)
        · exact hamong u hu
        · refine hheld u ?_
          unfold carried
          rw [collected_append]
          exact List.mem_append_right _ hu
      have hset : Stuck db chain (World.setActor { w with nextObject } .withPts
          (some { actor with updateList := actor.updateList ++ stamps })) :=
        hw.setActor hidle hjoined
      by_cases hexecuting : w.executing = some (.tryUpdates .withPts)
      · rw [requestActor_executing (w := { w with nextObject }) hreg hidle hexecuting]
        exact hset.conclude hchain hblocked hidle hjoined
      · rw [requestActor_waiting (w := { w with nextObject }) hreg hidle hexecuting]
        exact hset
  | execute =>
    show Stuck db chain (w.execute .withPts (givesUp unknown))
    unfold World.execute
    split
    · rename_i actor hexecuting hreg
      obtain ⟨hidle, hheld⟩ := h.actor actor hreg
      have hw : Stuck db chain { w with executing := some (.tryUpdates .withPts) } :=
        ⟨h.stored, h.applied, h.actor⟩
      exact hw.conclude hchain hblocked hidle hheld
    · exact h
  | applyCompleted =>
    show Stuck db chain (w.applyCompleted .withPts (givesUp unknown))
    unfold World.applyCompleted
    cases hreg : w.registered .withPts with
    | none => exact h
    | some actor =>
      have hidle := (h.actor actor hreg).1
      simp only [hidle]
      exact h

theorem Stuck.deliver (h : Stuck db chain w) (hchain : PtsChain db chain)
    (hblocked : Blocked unknown db chain) (deliveries : List Delivery) :
    Among (received deliveries) chain → Stuck db chain (deliver unknown w deliveries) := by
  induction deliveries generalizing w with
  | nil => exact fun _ => h
  | cons delivery deliveries ih =>
    intro hamong
    rw [received_cons] at hamong
    exact ih (h.event hchain hblocked (hamong.of_subset fun u hu => List.mem_append_left _ hu))
      (hamong.of_subset fun u hu => List.mem_append_right _ hu)

theorem stuck_initial (db : DatabaseState) (chain : List Update) : Stuck db chain { db } :=
  ⟨rfl, rfl, fun actor hactor => by cases hactor⟩

end TelegramPub.Ports.PtsBatches
