import IdleEngine.Resource.State

/-!
# Reading the rows of a store

Dirty tracking sets and clears one bit of a row. A reading that does not look at that bit sees the
store as an array: a write to a field changes one entry of it (`writeField_readings`), as it
changes the row, and the tracking that follows changes nothing.
-/

namespace IdleEngine

variable {n : ℕ} {ρ : Type}

/-- A reading of rows that does not look at the dirty bit. -/
structure RowReading (ρ : Type) where
  read : ResourceRow → ρ
  read_dirty : ∀ row dirty,
    read { row with flags := { row.flags with dirtyThisTick := dirty } } = read row

namespace ResourceState

/-- What is read of each resource. -/
def readings (s : ResourceState n) (reading : RowReading ρ) (i : Fin n) : ρ :=
  reading.read (s.live i)

variable (reading : RowReading ρ) (s : ResourceState n)

theorem setLive_readings (i : Fin n) (row : ResourceRow) :
    (s.setLive i row).readings reading =
      Function.update (s.readings reading) i (reading.read row) := by
  funext j
  by_cases hj : j = i
  · subst hj
    simp [readings, setLive]
  · simp [readings, setLive, hj]

theorem setDirtyBit_readings (i : Fin n) (dirty : Bool) :
    (s.setDirtyBit i dirty).readings reading = s.readings reading := by
  rw [setDirtyBit, setLive_readings, reading.read_dirty]
  exact Function.update_eq_self i (s.readings reading)

theorem markDirty_readings (i : Fin n) :
    (s.markDirty i).readings reading = s.readings reading :=
  s.setDirtyBit_readings reading i true

theorem unmarkIfClean_readings (i : Fin n) :
    (s.unmarkIfClean i).readings reading = s.readings reading := by
  rw [unmarkIfClean]
  split
  · exact s.setDirtyBit_readings reading i false
  · rfl

theorem reconcileDirtyState_readings {V : Type} (field : RowField V) (i : Fin n) :
    (s.reconcileDirtyState field i).readings reading = s.readings reading := by
  rw [reconcileDirtyState]
  split
  · exact s.unmarkIfClean_readings reading i
  · exact s.markDirty_readings reading i

/-- **Writing.** A write to a field changes one entry, as it changes the row. -/
theorem writeField_readings {V : Type} [DecidableEq V] (field : RowField V)
    (hfield : ∀ row, field.set (field.get row) row = row) (i : Fin n) (v : V) :
    (s.writeField field i v).readings reading =
      Function.update (s.readings reading) i (reading.read (field.set v (s.live i))) := by
  rw [writeField]
  split
  · next hsame =>
    rw [← hsame, hfield]
    exact (Function.update_eq_self i (s.readings reading)).symm
  · rw [reconcileDirtyState_readings, setLive_readings]

/-- A write to a field that is not read changes nothing. -/
theorem writeOther_readings {V : Type} [DecidableEq V] (field : RowField V)
    (hfield : ∀ row, field.set (field.get row) row = row)
    (hother : ∀ v row, reading.read (field.set v row) = reading.read row) (i : Fin n) (v : V) :
    (s.writeField field i v).readings reading = s.readings reading := by
  rw [s.writeField_readings reading field hfield, hother]
  exact Function.update_eq_self i (s.readings reading)

end ResourceState

end IdleEngine
