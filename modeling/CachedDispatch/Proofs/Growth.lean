import CachedDispatch.Proofs.Orderly

/-!
Every world that a run comes to is in order, as long as it has one runtime whose identities have not
come round, and along a run what is known of classes and objects only grows.
-/
namespace CachedDispatch

namespace World

/-- What is kept outside the classes refers to classes and runtimes that are there. -/
structure Housed (w : World) : Prop where
  objects : ∀ o, w.Placed (w.classOfObject o)
  labels : ∀ name r, Assoc.get? w.scope.labels name = some r → w.Entered r
  scope : w.scope.runtime = 0
  tables : ∀ t, (w.table t).runtime = 0

theorem cls_initial (config : Config) (embedding : Embedding) (b : BuiltinType) :
    (initial config embedding).cls ⟨b.id.number⟩ = b.toClass := by cases b <;> rfl

private theorem orderly_initial (config : Config) (embedding : Embedding) :
    (initial config embedding).Orderly := by
  have hsize : (initial config embedding).classes.size = 10 := rfl
  have hcls {r : ClassRef} (hr : r.idx < 10) :
      ∃ b : BuiltinType, r = ⟨b.id.number⟩ ∧ (initial config embedding).cls r = b.toClass := by
    obtain ⟨b, hb⟩ := BuiltinType.exists_of_lt hr
    obtain rfl : r = ⟨b.id.number⟩ := by rw [hb]
    exact ⟨b, rfl, cls_initial config embedding b⟩
  have hout {r : ClassRef} (hr : ¬ r.idx < 10) : (initial config embedding).cls r = default :=
    cls_out_of_range _ (hsize ▸ hr)
  have hid (b : BuiltinType) : ((initial config embedding).cls ⟨b.id.number⟩).id = b.id := by
    rw [cls_initial, b.toClass_spec.1]
  constructor
  · refine ⟨⟨rfl, Nat.zero_le _⟩, rfl, Nat.le_refl _, hid, fun r hr hlt => ?_, ?_, nofun, nofun⟩
    · rw [hsize] at hlt
      omega
    · intro r q hr hq heq
      obtain ⟨b, rfl, -⟩ := hcls hr
      obtain ⟨b', rfl, -⟩ := hcls hq
      rw [hid, hid] at heq
      rw [heq]
  · intro r hr
    obtain ⟨b, rfl, hb⟩ := hcls hr
    rw [hb, b.toClass_spec.2.1]
    cases b <;> decide
  · intro r hr
    obtain ⟨b, rfl, hb⟩ := hcls hr
    rw [hb]
    exact Or.inl b.toClass_spec.2.2.1
  · intro r hr hlt
    rw [hsize] at hlt
    omega
  · intro r a ha
    by_cases hr : r.idx < 10
    · obtain ⟨b, rfl, hb⟩ := hcls hr
      rw [hb, b.toClass_spec.2.2.1] at ha
      simp at ha
    · rw [hout hr] at ha
      exact absurd ha List.not_mem_nil
  · intro t r hr
    simp [StandsFor, initial, newRuntime, registry, runtime] at hr
  · intro r
    by_cases hr : r.idx < 10
    · obtain ⟨b, rfl, hb⟩ := hcls hr
      rw [hb]
      exact b.toClass_spec.2.2.2
    · rw [hout hr]
      exact fun name m hm => absurd hm List.not_mem_nil

private theorem housed_initial (config : Config) (embedding : Embedding) :
    (initial config embedding).Housed where
  objects _ := (orderly_initial config embedding).placed_zero
  labels _ _ h := by simp [initial, newRuntime] at h
  scope := rfl
  tables _ := rfl

/-- One move keeps the order and forgets nothing. -/
private theorem Move.keeps {w w' : World} (hm : Move w w') (h : w.Orderly) (hs : w'.Lone) :
    w'.Orderly ∧ w.Grows w' := by
  have hone := h.toLone
  have hlt : 0 < w.runtimes.size := Nat.lt_of_lt_of_eq Nat.one_pos h.single.symm
  cases hm with
  | record _ e =>
    exact ⟨h.of_eq rfl rfl rfl rfl, .of_eq rfl rfl (fun _ ho => ⟨ho, rfl⟩) (List.suffix_cons _ _)⟩
  | allocate => exact ⟨h.of_eq rfl rfl rfl rfl, .of_eq rfl rfl (fun _ ho => ⟨ho, rfl⟩) List.suffix_rfl⟩
  | count _ rt f =>
    have hr := w.registry_updateStats rt 0 f
    exact ⟨h.of_eq rfl hr (by simp) rfl, .of_eq rfl hr (fun _ ho => ⟨ho, rfl⟩) List.suffix_rfl⟩
  | findClass hrt t =>
    obtain rfl := hrt hone
    exact h.findClass t
  | @newObject r hr =>
    refine ⟨h.of_eq rfl rfl rfl rfl, .of_eq rfl rfl (fun o ho => ⟨?_, ?_⟩) List.suffix_rfl⟩
    · simpa [World.newObject] using Nat.lt_succ_of_lt ho
    · rw [classOfObject_newObject, if_neg (Nat.ne_of_lt ho)]
  | setField _ o name v =>
    refine ⟨h.of_eq rfl rfl rfl rfl, .of_eq rfl rfl (fun p hp => ⟨?_, ?_⟩) List.suffix_rfl⟩
    · simpa [World.setField] using hp
    · exact classOfObject_setField w o p name v
  | mutate hr mu => exact h.mutate _ mu
  | replaceClass hrt hr =>
    obtain rfl := hrt hone
    exact h.replaceClass (hr hone).toPlaced
  | defineClass hrt hp members =>
    obtain rfl := hrt hone
    have hbegun := hs.supplied
    rw [begun_defineClass, if_pos ⟨rfl, hlt⟩] at hbegun
    exact h.defineClass hbegun (fun p hpar => (hp p hpar hone).toPlaced) members
  | draftClass hrt key name isHost =>
    obtain rfl := hrt hone
    have hbegun : ((w.beginClass 0 name isHost).2.registry 0).begun ≤ TypeId.supply := hs.supplied
    rw [begun_beginClass, if_pos ⟨rfl, hlt⟩] at hbegun
    exact h.draftClass hbegun key name isHost
  | finishClass hd hp members =>
    exact h.finishClass hd (fun p hpar => (hp p hpar hone).toPlaced) members
  | newRuntime _ config =>
    have hone := hs.single
    simp only [World.newRuntime, Array.size_push] at hone
    omega
  | addTable hrt owner sites =>
    exact ⟨h.of_eq rfl rfl rfl rfl, .of_eq rfl rfl (fun _ ho => ⟨ho, rfl⟩) List.suffix_rfl⟩
  | install hslot ha hr =>
    exact ⟨h.of_eq rfl rfl rfl rfl, .of_eq rfl rfl (fun _ ho => ⟨ho, rfl⟩) List.suffix_rfl⟩
  | giveUp _ t i =>
    exact ⟨h.of_eq rfl rfl rfl rfl, .of_eq rfl rfl (fun _ ho => ⟨ho, rfl⟩) List.suffix_rfl⟩
  | activate _ active =>
    exact ⟨h.of_eq rfl rfl rfl rfl, .of_eq rfl rfl (fun _ ho => ⟨ho, rfl⟩) List.suffix_rfl⟩
  | rescope hrt hl =>
    exact ⟨h.of_eq rfl rfl rfl rfl, .of_eq rfl rfl (fun _ ho => ⟨ho, rfl⟩) List.suffix_rfl⟩

theorem Housed.of_sameRest {w w' : World} (h : w.Housed) (hr : w.SameRest w') (hg : w.Grows w') :
    w'.Housed where
  objects o := by rw [hr.classOfObject]; exact hg.placed (h.objects o)
  labels name r hn := hg.entered (h.labels name r (hr.scope ▸ hn))
  scope := by rw [hr.scope]; exact h.scope
  tables t := by simp only [table, hr.tables]; exact h.tables t

/-- One move keeps the references in place. -/
private theorem Move.keeps_housed {w w' : World} (hm : Move w w') (ho : w.Orderly) (h : w.Housed)
    (hs : w'.Lone) : w'.Housed := by
  obtain ⟨-, hg⟩ := hm.keeps ho hs
  have hp {r : ClassRef} (hr : w.Placed r) : w'.Placed r := hg.placed hr
  have he {r : ClassRef} (hr : w.Entered r) : w'.Entered r := hg.entered hr
  have hone := ho.toLone
  have hlt : 0 < w.runtimes.size := Nat.lt_of_lt_of_eq Nat.one_pos ho.single.symm
  cases hm with
  | record | allocate | count | activate =>
    exact ⟨fun o => hp (h.objects o), fun n r hn => he (h.labels n r hn), h.scope, h.tables⟩
  | findClass hrt t => exact h.of_sameRest (w.sameRest_findClass _ t) hg
  | newObject hr =>
    refine ⟨fun o => ?_, fun n r hn => he (h.labels n r hn), h.scope, h.tables⟩
    rw [classOfObject_newObject]
    split
    · exact hp (hr hone).toPlaced
    · exact hp (h.objects o)
  | setField _ o name v =>
    refine ⟨fun q => ?_, fun n r hn => he (h.labels n r hn), h.scope, h.tables⟩
    rw [classOfObject_setField]
    exact hp (h.objects q)
  | mutate hr mu => exact h.of_sameRest ⟨rfl, rfl, rfl, rfl, rfl, rfl, rfl⟩ hg
  | replaceClass hrt hr => exact h.of_sameRest (w.sameRest_replaceClass _ _) hg
  | defineClass hrt hpar members => exact h.of_sameRest (w.sameRest_defineClass _ _ members) hg
  | draftClass hrt key name isHost => exact h.of_sameRest (w.sameRest_draftClass key _ name isHost) hg
  | finishClass hd hpar members => exact h.of_sameRest (w.sameRest_finishClass _ _ _ members) hg
  | newRuntime _ config =>
    have hone := hs.single
    simp only [World.newRuntime, Array.size_push] at hone
    omega
  | addTable hrt owner sites =>
    refine ⟨fun o => hp (h.objects o), fun n r hn => he (h.labels n r hn), h.scope, fun t => ?_⟩
    rw [table_addTable]
    split
    · exact hrt hone
    · exact h.tables t
  | install hslot ha hr =>
    refine ⟨fun o => hp (h.objects o), fun n r hn => he (h.labels n r hn), h.scope, fun t => ?_⟩
    rw [runtime_updateSlot]
    exact h.tables t
  | giveUp _ t i =>
    refine ⟨fun o => hp (h.objects o), fun n r hn => he (h.labels n r hn), h.scope, fun t => ?_⟩
    rw [runtime_updateSlot]
    exact h.tables t
  | rescope hrt hl =>
    exact ⟨fun o => hp (h.objects o), fun n r hn => he (hl n r hn hone), hrt hone, h.tables⟩

private theorem Move.runtimes_size_le {w w' : World} (hm : Move w w') :
    w.runtimes.size ≤ w'.runtimes.size := by
  cases hm with
  | newRuntime _ config => simp [World.newRuntime]
  | count _ rt f => exact Nat.le_of_eq (runtimes_size_updateStats w rt f).symm
  | findClass hrt t => exact Nat.le_of_eq (w.runtimes_size_findClass _ t).symm
  | replaceClass hrt hr => exact Nat.le_of_eq (w.runtimes_size_replaceClass _ _).symm
  | defineClass hrt hp members =>
    exact Nat.le_of_eq (w.runtimes_size_defineClass _ _ members).symm
  | draftClass hrt key name isHost => exact Nat.le_of_eq (w.runtimes_size_beginClass _ name isHost).symm
  | finishClass hd hp members => exact Nat.le_of_eq (w.runtimes_size_buildClass _ _ members).symm
  | _ => exact Nat.le_refl _

/-- Identities that have been handed out are not taken back. -/
private theorem Move.begun_le {w w' : World} (hm : Move w w') (hlt : 0 < w.runtimes.size) :
    (w.registry 0).begun ≤ (w'.registry 0).begun := by
  have hbegin (rt : Nat) (name : String) (isHost : Bool) :
      (w.registry 0).begun ≤ ((w.beginClass rt name isHost).2.registry 0).begun := by
    rw [begun_beginClass]
    split
    · exact Nat.le_succ _
    · exact Nat.le_refl _
  cases hm with
  | newRuntime config => exact Nat.le_of_eq (by rw [registry_newRuntime, if_neg (Nat.ne_of_lt hlt)])
  | count rt f => exact Nat.le_of_eq (by rw [registry_updateStats])
  | findClass hrt t => exact Nat.le_of_eq (w.begun_findClass _ 0 t).symm
  | replaceClass hrt hr => exact Nat.le_of_eq (w.begun_replaceClass _ 0 _).symm
  | defineClass hrt hp members =>
    exact Nat.le_trans (hbegin _ members.name members.isHost) (Nat.le_of_eq (begun_buildClass ..).symm)
  | draftClass hrt key name isHost => exact hbegin _ name isHost
  | finishClass hd hp members => exact Nat.le_of_eq (w.begun_buildClass _ _ members 0).symm
  | _ => exact Nat.le_refl _

theorem Moves.runtimes_size_le {w w' : World} (h : Moves w w') :
    w.runtimes.size ≤ w'.runtimes.size := by
  induction h with
  | refl => exact Nat.le_refl _
  | tail _ hm ih => exact Nat.le_trans ih hm.runtimes_size_le

/-- A world was lone if one move makes it so. -/
private theorem Move.lone {w w' : World} (hm : Move w w') (hlt : 0 < w.runtimes.size) (hs : w'.Lone) :
    w.Lone := by
  have hsize := hm.runtimes_size_le
  rw [hs.single] at hsize
  exact ⟨Nat.le_antisymm hsize hlt, Nat.le_trans (hm.begun_le hlt) hs.supplied⟩

private theorem Moves.lone {w w' : World} (hm : Moves w w') (hlt : 0 < w.runtimes.size) (hs : w'.Lone) :
    w.Lone := by
  induction hm using Relation.ReflTransGen.head_induction_on with
  | refl => exact hs
  | head hm _ ih => exact hm.lone hlt (ih (Nat.lt_of_lt_of_le hlt hm.runtimes_size_le))

private theorem Moves.keeps {w w' : World} (hm : Moves w w') (ho : w.Orderly) (hh : w.Housed)
    (hs : w'.Lone) : w'.Orderly ∧ w'.Housed ∧ w.Grows w' := by
  induction hm with
  | refl => exact ⟨ho, hh, .refl w⟩
  | @tail v v' hmv hm ih =>
    have hlt : 0 < w.runtimes.size := Nat.lt_of_lt_of_eq Nat.one_pos ho.single.symm
    have hv : v.Lone := hm.lone (Nat.lt_of_lt_of_le hlt (Moves.runtimes_size_le hmv)) hs
    obtain ⟨hov, hhv, hg⟩ := ih hv
    obtain ⟨ho', hg'⟩ := hm.keeps hov hs
    exact ⟨ho', hm.keeps_housed hov hhv hs, hg.trans hg'⟩

theorem Reachable.orderly {w : World} (h : w.Reachable) (hs : w.Lone) : w.Orderly :=
  have ⟨config, embedding, hm⟩ := h
  (Moves.keeps hm (orderly_initial config embedding) (housed_initial config embedding) hs).1

theorem Reachable.housed {w : World} (h : w.Reachable) (hs : w.Lone) : w.Housed :=
  have ⟨config, embedding, hm⟩ := h
  (Moves.keeps hm (orderly_initial config embedding) (housed_initial config embedding) hs).2.1

/-- A run that ends with one runtime and without a shortage of identities has been so all the time. -/
theorem Reachable.lone_of_moves {w w' : World} (h : w.Reachable) (hm : Moves w w') (hs : w'.Lone) :
    w.Lone := by
  obtain ⟨config, embedding, h⟩ := h
  exact Moves.lone hm (Nat.lt_of_lt_of_le Nat.one_pos (Moves.runtimes_size_le h)) hs

theorem Reachable.grows {w w' : World} (h : w.Reachable) (hm : Moves w w') (hs : w'.Lone) :
    w.Grows w' :=
  have hone := h.lone_of_moves hm hs
  (Moves.keeps hm (h.orderly hone) (h.housed hone) hs).2.2

end World

end CachedDispatch
