import TagSim.Util.Proofs.DumpProofs

/-!
# Output and verbosity

A call prints either nothing or a text that does not depend on the level of the log, and which of the two it
is, its filter decides. Two runs are therefore compared call by call. `debug_impl` lets a message pass up to
the level of the log, `debug_dump_ptr` a dump above it.
-/

namespace TagSim.Debug

open Bytes Text

/-! ## Filters -/

/-- Where filters decide which items have an output, a run retains another one's output when its filter lets
    everything pass that the other one's does. -/
theorem retains_map_iff {ι : Type} {f g : ι → List Char} {p q : ι → Prop} (hf : ∀ i, f i ≠ [] ↔ p i)
    (hg : ∀ i, g i ≠ [] ↔ q i) (hfg : ∀ i, p i → q i → g i = f i) (is : List ι) :
    Retains (is.map f) (is.map g) ↔ ∀ i ∈ is, p i → q i := by
  rw [Retains, List.forall₂_map_left_iff, List.forall₂_map_right_iff, List.forall₂_same]
  refine forall_congr' fun i => forall_congr' fun _ => ⟨fun h hp => ?_, fun h hne => ?_⟩
  · have hne : f i ≠ [] := (hf i).mpr hp
    rw [← hg, h hne]
    exact hne
  · have hp : p i := (hf i).mp hne
    exact hfg i hp (h hp)

/-! ## What the level of the log decides -/

theorem debugWarn_le_debugSetLevel (level : Int) : debugWarn ≤ debugSetLevel level := by
  simp only [debugSetLevel, debugWarn, debugFlood]
  split_ifs <;> omega

/-- The filter of `debug_impl`. -/
theorem debugImpl_ne_nil_iff {debugLevel line level : Int} {func message : String} :
    debugImpl debugLevel func line level message ≠ [] ↔ level ≤ debugLevel ∨ level = debugError := by
  rw [debugImpl]
  split_ifs with h <;> simp [h]

theorem debugImpl_congr {debugLevel debugLevel' line level : Int} {func message : String}
    (h : level ≤ debugLevel ∨ level = debugError) (h' : level ≤ debugLevel' ∨ level = debugError) :
    debugImpl debugLevel' func line level message = debugImpl debugLevel func line level message := by
  rw [debugImpl, debugImpl, if_pos h, if_pos h']

section Dump

variable {w : Nat} {mem : BitVec w → Byte} {startBuf endBuf : BitVec w} {debugLevel debugLevel' level : Int}

/-- Every row is a line. -/
theorem rowLoop_ne_nil {n : Nat} {row : BitVec w} {d : Dump w} (h : 0 < n ∨ d.stderr ≠ []) :
    (rowLoop mem endBuf n row d).stderr ≠ [] := by
  induction n generalizing row d with
  | zero =>
    rcases h with h | h
    · omega
    · exact h
  | succ n ih =>
    rw [rowLoop]
    refine ih (Or.inr ?_)
    simp [endRow]

theorem maxRow_pos {dataLen : BitVec w} (hw : 16 ≤ w) (h : 0 < dataLen.toInt) :
    0 < ((dataLen + (BitVec.ofNat w columns - 1)) / BitVec.ofNat w columns).toNat := by
  have hlt := dataLen.isLt
  have hnat : 0 < dataLen.toNat ∧ 2 * dataLen.toNat < 2 ^ w := by
    rw [BitVec.toInt_eq_toNat_cond] at h
    split at h <;> omega
  rw [toNat_maxRow hw rfl hnat.2, rowCount]
  omega

/-- The filter of `debug_dump_ptr`. What fails the other checks is warned about. -/
theorem debugDumpPtr_ne_nil_iff (hw : 16 ≤ w) (hwarn : debugWarn ≤ debugLevel) :
    (debugDumpPtr mem debugLevel level startBuf endBuf).stderr ≠ [] ↔ debugLevel < level := by
  rw [debugDumpPtr]
  split_ifs with hlevel hnull
  · simp [Dump.start, hlevel]
  · simp only [not_le.mp hlevel, iff_true]
    exact debugImpl_ne_nil_iff.mpr (Or.inl hwarn)
  · simp only [not_le.mp hlevel, iff_true]
    split_ifs with hlen
    · exact debugImpl_ne_nil_iff.mpr (Or.inl hwarn)
    · exact rowLoop_ne_nil (Or.inl (maxRow_pos hw (not_le.mp hlen)))

theorem debugDumpPtr_congr (hwarn : debugWarn ≤ debugLevel) (hwarn' : debugWarn ≤ debugLevel')
    (h : debugLevel < level) (h' : debugLevel' < level) :
    debugDumpPtr mem debugLevel' level startBuf endBuf = debugDumpPtr mem debugLevel level startBuf endBuf := by
  have htext : ∀ line message, warn debugLevel' "debug_dump_ptr" line message =
      warn debugLevel "debug_dump_ptr" line message :=
    fun line message => debugImpl_congr (Or.inl hwarn) (Or.inl hwarn')
  rw [debugDumpPtr, debugDumpPtr, if_neg (not_le.mpr h), if_neg (not_le.mpr h')]
  simp only [htext]

end Dump

/-! ## Two runs -/

variable {P : Platform} {debugLevel debugLevel' : Int}

/-- The filter of a call. -/
def Call.Printed (debugLevel : Int) : Call P → Prop
  | .impl _ _ level _ => P.toLevel level ≤ debugLevel ∨ P.toLevel level = debugError
  | .dump level _ _ _ => debugLevel < P.toLevel level

theorem Call.output_ne_nil_iff (hwarn : debugWarn ≤ debugLevel) (c : Call P) :
    c.output debugLevel ≠ [] ↔ c.Printed debugLevel := by
  cases c with
  | impl func line level message => exact debugImpl_ne_nil_iff
  | dump level mem startBuf endBuf => exact debugDumpPtr_ne_nil_iff P.sixteen_le hwarn

theorem Call.output_congr (hwarn : debugWarn ≤ debugLevel) (hwarn' : debugWarn ≤ debugLevel') (c : Call P)
    (h : c.Printed debugLevel) (h' : c.Printed debugLevel') : c.output debugLevel' = c.output debugLevel := by
  cases c with
  | impl func line level message => exact debugImpl_congr h h'
  | dump level mem startBuf endBuf => exact congrArg Dump.stderr (debugDumpPtr_congr hwarn hwarn' h h')

/-- The levels kept of `a` and of `b` lie between `WARN` and `FLOOD`, and so does every level that only one of
    them lets pass. -/
theorem Call.kept_iff (a b : Int) (c : Call P) : c.Kept a b ↔
    (c.Printed (debugSetLevel (P.toLevel a)) → c.Printed (debugSetLevel (P.toLevel b))) := by
  cases c with
  | impl func line level message =>
    simp only [Call.Kept, Call.Printed, debugSetLevel, debugWarn, debugInfo, debugFlood, debugError]
    split_ifs <;> omega
  | dump level mem startBuf endBuf =>
    simp only [Call.Kept, Call.Printed, debugSetLevel, debugWarn, debugInfo, debugFlood]
    split_ifs <;> omega

/-- Another argument of `debug_set_level` keeps all output exactly when every call is kept. -/
theorem outputs_retained_iff (a b : Int) (calls : List (Call P)) :
    Retains (outputs a calls) (outputs b calls) ↔ ∀ c ∈ calls, c.Kept a b := by
  have ha := debugWarn_le_debugSetLevel (P.toLevel a)
  have hb := debugWarn_le_debugSetLevel (P.toLevel b)
  rw [outputs, outputs, retains_map_iff (Call.output_ne_nil_iff ha) (Call.output_ne_nil_iff hb)
    (Call.output_congr ha hb)]
  exact forall_congr' fun c => forall_congr' fun _ => (Call.kept_iff a b c).symm

/-- A dump at `INFO` is printed at `WARN` and not at `INFO`. -/
theorem outputs_dropped : (1 : Int) ≤ 2 ∧
    let calls : List (Call Platform.lp64) := [.dump 2 (fun _ => 0) 4096 4097]
    outputs 1 calls = ["0000 00\n".toList] ∧ outputs 2 calls = [[]] ∧
      ¬ Retains (outputs 1 calls) (outputs 2 calls) := by
  refine ⟨by decide, ?_⟩
  intro calls
  have hwarn : outputs 1 calls = ["0000 00\n".toList] := by decide
  have hinfo : outputs 2 calls = [[]] := by decide
  refine ⟨hwarn, hinfo, ?_⟩
  rw [hwarn, hinfo, Retains, List.forall₂_cons]
  rintro ⟨h, -⟩
  cases h (by decide)

end TagSim.Debug
