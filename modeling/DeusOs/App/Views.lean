import DeusOs.App.Model.Bridge

/-!
# Applications — the view

What is drawn is the view of the runtime, and only where it is marked. So a
view that is not marked has to be the one that was there: whatever the runtime
is asked, it changes the view where it marks it, and takes no mark away
(`keeps_bridgeService`, `keeps_runtimeStart`, `keeps_runtimeStop`).
-/

namespace DeusOs

namespace App

variable {ω : Type} (app : Index → Callbacks ω) {m m' m'' : Machine ω}

/-- A view that is not marked afterwards was not marked, and is the same. -/
def KeepsView (m m' : Machine ω) : Prop :=
  m'.runtime.viewDirty = false →
    m.runtime.viewDirty = false ∧ m'.runtime.view = m.runtime.view

theorem KeepsView.refl (m : Machine ω) : KeepsView m m := fun h => ⟨h, rfl⟩

theorem KeepsView.trans (h : KeepsView m m') (h' : KeepsView m' m'') : KeepsView m m'' := by
  intro hclean
  obtain ⟨hclean', hview'⟩ := h' hclean
  obtain ⟨hclean'', hview⟩ := h hclean'
  exact ⟨hclean'', hview'.trans hview⟩

/-- What neither marks nor changes the view. -/
theorem KeepsView.of_eq (hdirty : m'.runtime.viewDirty = m.runtime.viewDirty)
    (hview : m'.runtime.view = m.runtime.view) : KeepsView m m' := fun h => ⟨hdirty ▸ h, hview⟩

/-- **A view that is rendered anew is marked** where it is another. The runtime
compares the two, and an equal one changes nothing. -/
theorem keeps_renderActive (m : Machine ω) (services : ServiceSnapshot) :
    KeepsView m (renderActive app m services).1 := by
  unfold renderActive
  dsimp only
  split
  · exact .refl m
  · rename_i index _
    split
    · exact .refl m
    · generalize (app index).render .clear services m.world = answer
      obtain ⟨ok, candidate, world⟩ := answer
      split
      · split
        · exact .of_eq rfl rfl
        · exact .of_eq rfl rfl
      · split
        · exact .of_eq rfl rfl
        -- the view is another one
        · exact fun h => Bool.noConfusion h

theorem keeps_startHomeFallback (m : Machine ω) (services : ServiceSnapshot) :
    KeepsView m (startHomeFallback app m services).1 := by
  unfold startHomeFallback
  dsimp only
  split
  · exact .of_eq rfl rfl
  · generalize (app homeIndex).start services m.world = answer
    obtain ⟨ok, world⟩ := answer
    split
    · exact .of_eq rfl rfl
    · exact KeepsView.trans (.of_eq rfl rfl) (keeps_renderActive app _ services)

theorem keeps_stopOwner (m : Machine ω) (index : Index) (services : ServiceSnapshot) :
    KeepsView m (stopOwner app m index services).1 := by
  unfold stopOwner
  generalize (app index).stop services m.world = answer
  obtain ⟨ok, world⟩ := answer
  dsimp only
  split
  · exact .of_eq rfl rfl
  · exact .of_eq rfl rfl

theorem keeps_startTarget (m : Machine ω) (id : UInt16) (index : Index)
    (services : ServiceSnapshot) : KeepsView m (startTarget app m id index services).1 := by
  unfold startTarget
  generalize (app index).start services m.world = answer
  obtain ⟨ok, world⟩ := answer
  dsimp only
  split
  · split
    · exact KeepsView.trans (.of_eq rfl rfl) (keeps_startHomeFallback app _ services)
    · exact .of_eq rfl rfl
  · exact KeepsView.trans (.of_eq rfl rfl) (keeps_renderActive app _ services)

/-- **To start an application** keeps the view: whatever is put on display on
the way, home included, is marked. -/
theorem keeps_runtimeStart (m : Machine ω) (id : UInt16) (services : Option ServiceSnapshot) :
    KeepsView m (runtimeStart app m id services).1 := by
  unfold runtimeStart
  split
  · rename_i services targetIndex _
    split
    · exact .refl m
    · split
      · exact .refl m
      · split
        · exact .refl m
        · split
          · split
            · exact .refl m
            · rename_i currentIndex _
              split
              · exact .refl m
              · -- the owner is stopped first
                have hstop := keeps_stopOwner app m currentIndex services
                dsimp only
                split
                · exact hstop
                · exact hstop.trans (keeps_startTarget app _ id targetIndex services)
          · exact keeps_startTarget app m id targetIndex services
  · exact .refl m

/-- **To stop an application** keeps the view, since home's view is marked as
any other. -/
theorem keeps_runtimeStop (m : Machine ω) (services : Option ServiceSnapshot) :
    KeepsView m (runtimeStop app m services).1 := by
  unfold runtimeStop
  split
  · exact .refl m
  · split
    · exact .refl m
    · exact keeps_runtimeStart app m idSystemHome services

theorem keeps_runtimeDispatchEvent (m : Machine ω) (event : Option Event)
    (services : Option ServiceSnapshot) :
    KeepsView m (runtimeDispatchEvent app m event services).1 := by
  unfold runtimeDispatchEvent
  split
  · rename_i event services index _
    split
    · exact .refl m
    · split
      · exact .refl m
      · generalize (app index).event event services m.world = answer
        obtain ⟨effects, world⟩ := answer
        dsimp only
        have hevent : ∀ r : Runtime, r.viewDirty = m.runtime.viewDirty → r.view = m.runtime.view →
            KeepsView m { runtime := r, world := world,
                          calls := m.calls ++ [.event index event effects] } :=
          fun r hdirty hview => .of_eq hdirty hview
        split
        · refine KeepsView.trans (hevent _ ?_ ?_) (keeps_renderActive app _ services)
          · split <;> rfl
          · split <;> rfl
        · refine hevent _ ?_ ?_
          · split <;> rfl
          · split <;> rfl
  · exact .refl m

theorem keeps_runtimeService (m : Machine ω) (services : Option ServiceSnapshot) :
    KeepsView m (runtimeService app m services).1 := by
  unfold runtimeService
  split
  · exact .refl m
  · rename_i services
    split
    · exact .refl m
    · split
      · exact keeps_renderActive app m services
      · exact .refl m

theorem keeps_bridgeChange (m : Machine ω) (type source : UInt16) (value old : UInt32)
    (services : ServiceSnapshot) :
    KeepsView m (bridgeChange app m type source value old services).1 := by
  unfold bridgeChange
  split
  · exact keeps_runtimeDispatchEvent app m _ _
  · exact .refl m

theorem keeps_bridgeChanges (m : Machine ω) (last services : ServiceSnapshot) :
    KeepsView m (bridgeChanges app m last services).1 := by
  unfold bridgeChanges
  dsimp only
  have hminute := keeps_bridgeChange app m 0x0002 0x0002 services.displayedMinute
    last.displayedMinute services
  split
  · exact hminute
  · have hhealth := hminute.trans (keeps_bridgeChange app _ 0x0003 0x0003
      services.systemHealthy.toUInt32 last.systemHealthy.toUInt32 services)
    split
    · exact hhealth
    · have husb := hhealth.trans (keeps_bridgeChange app _ 0x0004 0x0004
        services.usbConfigured.toUInt32 last.usbConfigured.toUInt32 services)
      split
      · exact husb
      · exact husb.trans (keeps_bridgeChange app _ 0x0005 0x0005 services.networkOnline.toUInt32
          last.networkOnline.toUInt32 services)

/-- **To serve the applications** keeps the view: it is a number of calls of the
runtime, one after the other. -/
theorem keeps_bridgeService (b : Bridge ω) (services : Option ServiceSnapshot) :
    KeepsView b.machine (bridgeService app b services).1.machine := by
  unfold bridgeService
  split
  · exact .refl _
  · rename_i services
    dsimp only
    split
    · exact .refl _
    · have howner : KeepsView b.machine (bridgeOwner app b.machine services).1 := by
        unfold bridgeOwner
        split
        · exact keeps_runtimeStart app _ _ _
        · exact .refl _
      split
      · exact howner
      · have hready : KeepsView b.machine
            (bridgeReady app b.readyEventSent (bridgeOwner app b.machine services).1
              services).1 := by
          refine howner.trans ?_
          unfold bridgeReady
          split
          · exact keeps_runtimeDispatchEvent app _ _ _
          · exact .refl _
        split
        · exact hready
        · cases b.serviceSnapshotValid with
          | true =>
            have hchanges := hready.trans (keeps_bridgeChanges app _ b.lastServiceSnapshot services)
            rw [if_pos rfl]
            split
            · exact hchanges
            · exact hchanges.trans (keeps_runtimeService app _ _)
          | false =>
            rw [if_neg Bool.false_ne_true, if_neg (Ne.symm Bool.false_ne_true)]
            exact hready.trans (keeps_runtimeService app _ _)

end App

end DeusOs
