import SpriteCanvas.Cast.Roster

/-!
# Looking up a sprite

The members of a cast are in ascending order of their names, so a name has at most one member
(`find?_of_mem`), and an operation on a cast is known by what it does to the lookup of each name.
-/

namespace SpriteCanvas

namespace Member

theorem find?_of_mem {m : Member} : ∀ {ms : List Member}, ms.Pairwise (·.id < ·.id) → m ∈ ms →
    ms.find? (·.id = m.id) = some m
  | n :: rest, hs, hm => by
    obtain ⟨hn, hrest⟩ := List.pairwise_cons.1 hs
    rcases List.mem_cons.1 hm with rfl | hm
    · simp
    · have hne : n.id ≠ m.id := (Std.ne_of_lt (hn m hm))
      rw [List.find?_cons_of_neg (by simpa using hne)]
      exact find?_of_mem hrest hm

theorem find?_insert (m : Member) (id : SpriteId) : ∀ ms : List Member,
    (m.insert ms).find? (·.id = id) = if m.id = id then some m else ms.find? (·.id = id)
  | [] => by
    simp only [insert, List.find?_cons, List.find?_nil]
    by_cases h : m.id = id <;> simp [h]
  | n :: rest => by
    simp only [insert]
    split
    · by_cases h : m.id = id <;> simp [h]
    · split
      · rename_i heq
        by_cases h : m.id = id
        · simp [h]
        · have hn : n.id ≠ id := heq ▸ h
          simp [h, hn]
      · rename_i hne
        by_cases h : n.id = id
        · have hm : m.id ≠ id := fun hm => hne (hm.trans h.symm)
          simp [h, hm]
        · rw [List.find?_cons_of_neg (by simpa using h), find?_insert m id rest,
            List.find?_cons_of_neg (by simpa using h)]

end Member

namespace Cast

variable {c : Cast} {id i : SpriteId} {m : Member}

theorem id_of_find? (h : c.find? id = some m) : m.id = id := by
  simpa using List.find?_some h

theorem mem_of_find? (h : c.find? id = some m) : m ∈ c.members :=
  List.mem_of_find?_eq_some h

theorem find?_of_mem (h : m ∈ c.members) : c.find? m.id = some m :=
  Member.find?_of_mem c.sorted h

@[simp] theorem find?_empty : Cast.empty.find? id = none := rfl

@[simp] theorem find?_bump : c.bump.find? id = c.find? id := rfl

@[simp] theorem find?_put : (c.put m).find? id = if m.id = id then some m else c.find? id :=
  Member.find?_insert m id c.members

@[simp] theorem find?_mapFigures (f : Member → Figure) :
    (c.mapFigures f).find? id = (c.find? id).map fun m => { m with figure := f m } := by
  unfold find? mapFigures
  rw [List.find?_map]
  rfl

theorem find?_update (f : Figure → Figure) :
    (c.update i f).find? id =
      (c.find? id).map fun m => { m with figure := if m.id = i then f m.figure else m.figure } :=
  find?_mapFigures _

theorem find?_update_self (f : Figure → Figure) :
    (c.update id f).find? id = (c.find? id).map fun m => { m with figure := f m.figure } := by
  rw [find?_update]
  rcases h : c.find? id with _ | m
  · rfl
  · simp [id_of_find? h]

theorem find?_update_of_ne (h : id ≠ i) (f : Figure → Figure) :
    (c.update i f).find? id = c.find? id := by
  rw [find?_update]
  rcases hm : c.find? id with _ | m
  · rfl
  · have hne : m.id ≠ i := id_of_find? hm ▸ h
    simp [hne]

theorem find?_remove : (c.remove i).find? id = if id = i then none else c.find? id := by
  simp only [find?, remove, List.find?_filter]
  by_cases h : id = i
  · simp only [h, if_true, List.find?_eq_none]
    simp
  · rw [if_neg h]
    congr 1
    funext n
    by_cases hn : n.id = id <;> simp [hn, h]

theorem find?_register_of_ne (h : id ≠ i) (target : String) (position : Point) (script : Script) :
    (c.register i target position script).2.find? id = c.find? id := by
  unfold register
  split
  · rename_i m hm
    simp [id_of_find? hm, h.symm]
  · simp [h.symm]

theorem find?_register_of_some (h : c.find? id = some m) (target : String) (position : Point)
    (script : Script) :
    (c.register id target position script).2.find? id = some { m with
      target := target
      figure := { m.figure with position := position, looping := false }
      script := script
      generation := c.nextGeneration } := by
  simp [register, h, id_of_find? h]

theorem find?_register_of_none (h : c.find? id = none) (target : String) (position : Point)
    (script : Script) :
    (c.register id target position script).2.find? id =
      some ⟨id, target, .new position, script, c.nextGeneration⟩ := by
  simp [register, h]

theorem find?_setScript_of_ne (h : id ≠ i) (script : Script) :
    (c.setScript i script).2.find? id = c.find? id := by
  unfold setScript
  split
  · rename_i m hm
    simp [id_of_find? hm, h.symm]
  · simp

theorem find?_setScript_self (script : Script) :
    (c.setScript id script).2.find? id = (c.find? id).map fun m => { m with
      figure := { m.figure with looping := false }
      script := script
      generation := c.nextGeneration } := by
  unfold setScript
  split
  · rename_i m hm
    simp [hm, id_of_find? hm]
  · rename_i hm
    simp [hm]

theorem find?_of_isCurrent {generation : Nat} (h : c.isCurrent id generation) :
    ∃ m, c.find? id = some m := by
  unfold isCurrent at h
  obtain ⟨m, hm, -⟩ := (Option.any_eq_true _ _).1 h
  exact ⟨m, hm⟩

/-- A figure is changed only while its sprite has the generation that is asked for. -/
theorem find?_updateCurrent (generation : Nat) (f : Figure → Figure) :
    (c.updateCurrent i generation f).find? id =
      (c.find? id).map fun m => { m with
        figure := if m.id = i ∧ m.generation = generation then f m.figure else m.figure } := by
  unfold updateCurrent isCurrent
  rcases hi : c.find? i with _ | n
  · rcases hm : c.find? id with _ | m
    · simp [hm]
    · have hne : m.id ≠ i := by
        rintro rfl
        rw [id_of_find? hm] at hi
        simp [hi] at hm
      simp [hm, hne]
  · simp only [Option.any_some, decide_eq_true_eq]
    have key : ∀ m, c.find? id = some m → m.id = i → m = n := by
      intro m hm h
      rw [← h, id_of_find? hm] at hi
      simpa [hm] using hi
    split
    · rename_i hg
      rw [find?_update]
      rcases hm : c.find? id with _ | m
      · rfl
      · by_cases h : m.id = i
        · obtain rfl := key m hm h
          simp [hg]
        · simp [h]
    · rename_i hg
      rcases hm : c.find? id with _ | m
      · rfl
      · have hne : ¬ (m.id = i ∧ m.generation = generation) := by
          rintro ⟨h, h'⟩
          exact hg (key m hm h ▸ h')
        simp [hne]

end Cast

end SpriteCanvas
