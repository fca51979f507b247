import MC68000.Proofs.Settling.Execution
import MC68000.Proofs.Step

set_option autoImplicit false

namespace MC68000

variable {World : Type}

namespace Decoding

theorem withMode_ne_stop {opcode : BitVec 16} {admits : AddressingMode → Bool}
    {instruction : AddressingMode → Instruction} (h : ∀ mode, instruction mode ≠ .stop) :
    withMode opcode admits instruction ≠ .stop := by
  unfold withMode
  split
  · split
    · exact h _
    · exact nofun
  · exact nofun

theorem withSizeAndMode_ne_stop {opcode : BitVec 16} {admits : Size → AddressingMode → Bool}
    {instruction : Size → AddressingMode → Instruction} (h : ∀ size mode, instruction size mode ≠ .stop) :
    withSizeAndMode opcode admits instruction ≠ .stop := by
  unfold withSizeAndMode
  split
  · exact withMode_ne_stop (h _)
  · exact nofun

theorem movem_ne_stop {opcode : BitVec 16} {admits : AddressingMode → Bool}
    {instruction : Size → AddressingMode → Instruction}
    (h : ∀ size mode, instruction size mode ≠ .stop) : movem opcode admits instruction ≠ .stop := by
  unfold movem
  grind

/-- Only the miscellaneous line has STOP, in the row and the column of the control instructions. All other lines
build their instructions from operands and fields. -/
theorem control_of_stop {opcode : BitVec 16} (h : Instruction.decode opcode = .stop) :
    (opcode.extractLsb' 12 4).toNat = 4 ∧ opcode.getLsbD 8 = false ∧
      (opcode.extractLsb' 9 3).toNat = 7 ∧ (opcode.extractLsb' 6 2).toNat = 1 ∧
      control opcode = .stop := by
  unfold Instruction.decode at h
  split at h
  case h_5 line =>
    -- the miscellaneous line
    refine ⟨line, ?_⟩
    simp only [miscellaneousLine, unary, moveToSr, extensionRow] at h
    grind [withMode_ne_stop, withSizeAndMode_ne_stop, movem_ne_stop]
  case h_8 => split at h <;> cases h
  case h_11 | h_16 => cases h
  all_goals
    simp only [immediateLine, immediate, bitLiteral, movep, moveLine, quickLine, branchLine, orLine, sumLine,
      compareLine, andLine, shiftLine, decimal, logic] at h
    grind [withMode_ne_stop, withSizeAndMode_ne_stop]

theorem control_stop {opcode : BitVec 16} (h : control opcode = .stop) :
    (opcode.extractLsb' 3 3).toNat = 6 ∧ (opcode.extractLsb' 0 3).toNat = 2 := by
  unfold control at h
  grind

/-- Only one opcode stops the processor. -/
theorem decode_stop {opcode : BitVec 16} (h : Instruction.decode opcode = .stop) :
    opcode = 0x4E72 := by
  obtain ⟨four, bit, seven, one, control⟩ := control_of_stop h
  obtain ⟨six, two⟩ := control_stop control
  have eight : opcode.toNat / 256 % 2 = 0 := by
    rw [BitVec.getLsbD, Nat.testBit_eq_decide_div_mod_eq, decide_eq_false_iff_not] at bit
    omega
  apply BitVec.eq_of_toNat_eq
  rw [BitVec.extractLsb'_toNat, Nat.shiftRight_eq_div_pow] at four seven one six two
  have whole : opcode.toNat = 0x4E72 := by omega
  exact whole

end Decoding

namespace Exec

theorem activity_fetchWord (m : Machine World) :
    Ends (fetchWord m) (fun _ fetched => m.activity <+: fetched.activity ∧
      fetched.activity.length ≤ m.activity.length + 1) fun _ _ => True := by
  have one : Accesses 0 False 1 (fetchWord : Exec World (BitVec 16)) := accesses_fetchWord
  have effects := fetchWord_effects m
  have few := one m
  cases found : fetchWord m with
  | error e fetched => exact trivial
  | ok word fetched =>
    rw [found] at effects few
    exact ⟨Machine.Effects.activity_grows effects, few.2.1⟩

end Exec

namespace Instruction

theorem execute_adds (opcode : BitVec 16) (m : Machine World) :
    Ends ((decode opcode).execute m)
      (fun _ m' => m.activity <+: m'.activity ∧ m'.opcode = m.opcode) fun _ _ => True := by
  apply (execute_outcome opcode m).mono
  · rintro _ m' (effects | ⟨_, before, change, _, effects, rfl⟩)
    · exact ⟨effects.activity_grows, effects.opcode⟩
    · rw [Machine.activity_apply, Machine.opcode_apply]
      exact ⟨effects.activity_grows, effects.opcode⟩
  · exact fun _ _ _ => trivial

/-- The cost of an instruction covers the fetch of its opcode and the cycles that it makes after it. -/
theorem execute_pays {opcode : BitVec 16} (running : opcode ≠ 0x4E72) (m : Machine World) :
    Ends ((decode opcode).execute m)
      (fun cost m' => 4 * (1 + m'.activity.length) ≤ cost + 4 * m.activity.length)
      fun _ _ => True := by
  have settles : Exec.Settles (decode opcode).keptBits (decode opcode).KeepsData 1
      ((decode opcode).execute : Exec World Nat) :=
    settles_execute (encodable_decode opcode) fun stop => running (Decoding.decode_stop stop)
  exact (settles m).mono (fun _ _ => id) fun _ _ _ => trivial

end Instruction

/-- From its fetch on, an instruction that is not STOP costs four for each bus cycle. -/
theorem Exec.nextInstruction_pays (m : Machine World) :
    Ends (nextInstruction m)
      (fun cost m' => m.activity <+: m'.activity ∧ (m'.opcode ≠ 0x4E72 →
        4 * m'.activity.length ≤ cost + 4 * m.activity.length)) fun _ _ => True := by
  unfold nextInstruction
  apply (activity_fetchWord m).bind
  rintro opcode fetched ⟨fetches, one⟩
  have adds := Instruction.execute_adds opcode { fetched with opcode }
  change Ends ((Instruction.decode opcode).execute { fetched with opcode }) _ _
  cases done : (Instruction.decode opcode).execute { fetched with opcode } with
  | error e m' => exact trivial
  | ok cost m' =>
    rw [done] at adds
    obtain ⟨grows, same⟩ := adds
    refine ⟨fetches.trans grows, fun other => ?_⟩
    have running : opcode ≠ 0x4E72 := by
      change m'.opcode = opcode at same
      rwa [same] at other
    have pays := Instruction.execute_pays running { fetched with opcode }
    rw [done] at pays
    change 4 * (1 + m'.activity.length) ≤ cost + 4 * fetched.activity.length at pays
    omega

theorem exists_made {before after : List BusCycle} {spent cost : Nat} (grows : before <+: after)
    (covers : 4 * (spent + after.length) ≤ cost + 4 * before.length) :
    ∃ made, after = before ++ made ∧ 4 * (spent + made.length) ≤ cost := by
  obtain ⟨made, grown⟩ := grows
  have length : after.length = before.length + made.length := by
    rw [← grown, List.length_append]
  refine ⟨made, grown.symm, ?_⟩
  omega

/-- No instruction but STOP is cheaper than its bus traffic: four clock cycles for the fetch of its opcode
and four for each cycle that it makes after it. From its fetch on, it costs four for each cycle. -/
theorem Instruction.cost_covers_traffic {opcode : BitVec 16} (running : opcode ≠ 0x4E72)
    (m m' : Machine World) (cost : Nat) :
    ((decode opcode).execute m = .ok cost m' →
      ∃ made, m'.activity = m.activity ++ made ∧ 4 * (1 + made.length) ≤ cost) ∧
    (Exec.nextInstruction m = .ok cost m' → m'.opcode = opcode →
      ∃ made, m'.activity = m.activity ++ made ∧ 4 * made.length ≤ cost) := by
  constructor
  · intro completes
    have adds := execute_adds opcode m
    have pays := execute_pays running m
    rw [completes] at adds pays
    exact exists_made adds.1 pays
  · intro completes same
    have pays := Exec.nextInstruction_pays m
    rw [completes] at pays
    have covers := pays.2 (by rwa [same])
    rw [← Nat.zero_add m'.activity.length] at covers
    obtain ⟨made, grown, enough⟩ := exists_made pays.1 covers
    rw [Nat.zero_add] at enough
    exact ⟨made, grown, enough⟩

/-- A processor on an open bus, where LINK A0 finds a displacement of zero and pushes into nothing. -/
def Machine.linking : Machine Unit :=
  new ⟨0x00FFFFFF, .openBus 0⟩ ⟨#[], .none, ()⟩ fun _ world => world

/-- It takes sixteen clock cycles and three bus cycles beside the fetch of its opcode, which leaves no
clock cycle over. -/
theorem Instruction.cost_covers_traffic_link : ∃ m' : Machine Unit,
    (decode 0x4E50).execute Machine.linking = .ok 16 m' ∧ m'.activity.length = 3 ∧
      ∃ made, m'.activity = Machine.linking.activity ++ made ∧ 4 * (1 + made.length) ≤ 16 := by
  have completes : (decode 0x4E50).execute Machine.linking =
      .ok 16 (finalState ((decode 0x4E50).execute Machine.linking)) := rfl
  have other : (0x4E50 : BitVec 16) ≠ 0x4E72 := by decide
  exact ⟨_, completes, rfl, (cost_covers_traffic other _ _ _).1 completes⟩

end MC68000
