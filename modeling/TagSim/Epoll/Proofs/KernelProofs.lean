import TagSim.Epoll.Kernel

/-!
# The descriptor table and the interest list

How each operation of the kernel changes the two, and what the documented rules give.
-/

namespace TagSim.Epoll

namespace Kernel

variable (k : Kernel) (fd fd' : Fd)

@[simp] theorem files_openFile (kind : FileKind) :
    (k.openFile fd kind).files fd' = if fd' = fd then some kind else k.files fd' :=
  Function.update_apply ..

@[simp] theorem interest_openFile (kind : FileKind) : (k.openFile fd kind).interest = k.interest := rfl

@[simp] theorem files_closeFile :
    (k.closeFile fd).files fd' = if fd' = fd then none else k.files fd' :=
  Function.update_apply ..

@[simp] theorem interest_closeFile :
    (k.closeFile fd).interest fd' = if fd' = fd then none else k.interest fd' :=
  Function.update_apply ..

@[simp] theorem files_ctl (op : CtlOp) (events : EventMask) : (k.ctl op fd events).files = k.files := by
  cases op <;> rfl

@[simp] theorem interest_add (events : EventMask) :
    (k.ctl .add fd events).interest fd' = if fd' = fd then some events else k.interest fd' :=
  Function.update_apply ..

@[simp] theorem interest_mod (events : EventMask) :
    (k.ctl .mod fd events).interest fd' = if fd' = fd then some events else k.interest fd' :=
  Function.update_apply ..

@[simp] theorem interest_del (events : EventMask) :
    (k.ctl .del fd events).interest fd' = if fd' = fd then none else k.interest fd' :=
  Function.update_apply ..

variable {k fd fd'}

theorem files_of_fresh (h : k.fresh fd) : k.files fd = none := by
  rw [fresh, Bool.and_eq_true] at h
  exact Option.isNone_iff_eq_none.mp h.2

theorem nonneg_of_fresh (h : k.fresh fd) : 0 ≤ fd := by
  rw [fresh, Bool.and_eq_true] at h
  exact of_decide_eq_true h.1

/-- A descriptor that is open is not returned as a new one. -/
theorem ne_of_fresh {kind : FileKind} (h : k.fresh fd) (hopen : k.files fd' = some kind) : fd' ≠ fd := by
  rintro rfl
  rw [files_of_fresh h] at hopen
  cases hopen

/-- Opening a descriptor adds no other kind of file. -/
theorem files_openFile_iff {kind kind' : FileKind} (h : k.fresh fd) (hne : kind ≠ kind') :
    (k.openFile fd kind).files fd' = some kind' ↔ k.files fd' = some kind' := by
  rw [files_openFile]
  by_cases hfd : fd' = fd
  · rw [if_pos hfd, hfd, files_of_fresh h]
    simp [hne]
  · rw [if_neg hfd]

/-- Closing a descriptor takes away no other kind of file. -/
theorem files_closeFile_iff {kind : FileKind} (hne : k.files fd ≠ some kind) :
    (k.closeFile fd).files fd' = some kind ↔ k.files fd' = some kind := by
  rw [files_closeFile]
  by_cases hfd : fd' = fd
  · rw [if_pos hfd, hfd]
    simp [hne]
  · rw [if_neg hfd]

theorem ctlLegal_add : k.ctlLegal .add fd = true ↔ (k.files fd).isSome ∧ k.interest fd = none := by
  simp [ctlLegal]

theorem ctlLegal_mod : k.ctlLegal .mod fd = true ↔ (k.files fd).isSome ∧ (k.interest fd).isSome := by
  simp [ctlLegal]

/-- After `close`, `EPOLL_CTL_DEL` does not meet its precondition. -/
theorem ctlLegal_del_closeFile : (k.closeFile fd).ctlLegal .del fd = false := by
  simp [ctlLegal]

/-- An event of a legal batch is one of a registered descriptor. -/
theorem interest_of_batchLegal {evs : List Event} (h : k.batchLegal evs) {ev : Event} (hev : ev ∈ evs) :
    (k.interest ev.fd).isSome := by
  simp only [batchLegal, Bool.and_eq_true, List.all_eq_true] at h
  have hrep := h.1.1 ev hev
  unfold reports at hrep
  split at hrep
  · cases hrep
  · next mask hmask => rw [hmask]; rfl

theorem nodup_of_batchLegal {evs : List Event} (h : k.batchLegal evs) : (evs.map Event.fd).Nodup := by
  simp only [batchLegal, Bool.and_eq_true, decide_eq_true_eq] at h
  exact h.1.2

theorem length_le_of_batchLegal {evs : List Event} (h : k.batchLegal evs) : evs.length ≤ maxEvents := by
  simp only [batchLegal, Bool.and_eq_true, decide_eq_true_eq] at h
  exact h.2

end Kernel

theorem documented_strict : documented.Strict where
  ctl _ _ _ _ _ h := by simpa [documented] using h
  wait _ _ h := h
  waitFails := rfl

theorem anyDel_strict : anyDel.Strict where
  ctl _ _ _ _ hop h := by simpa [anyDel, hop] using h
  wait _ _ h := h
  waitFails := rfl

end TagSim.Epoll
