import TeenyTiny.Proofs.Fills

/-! Outputs in memory. A block that goes over the limit is refused as a whole, and a fill may go on
behind it, so that what is stored is a choice among the blocks that the fill has to write. After
any run of commits the memory holds the choice of the last one that succeeded. -/
namespace TeenyTiny

/-- The blocks that an output takes of those that it is offered: each one that fits behind those it
has taken before. -/
def fitting : (used : Nat) → List ByteArray → List ByteArray
  | _,[] => []
  | used,block :: rest =>
    if used + block.size ≤ maxOutputSize then block :: fitting (used + block.size) rest
    else fitting used rest

theorem fitting_append (used : Nat) (blocks more : List ByteArray) :
    fitting used (blocks ++ more) =
      fitting used blocks ++ fitting (used + (joined (fitting used blocks)).size) more := by
  induction blocks generalizing used with
  | nil => simp [fitting]
  | cons block blocks ih =>
    simp only [List.cons_append,fitting]
    split
    · simp [ih,ByteArray.size_append,Nat.add_assoc]
    · exact ih used

theorem size_fitting_le {used : Nat} (h : used ≤ maxOutputSize) (blocks : List ByteArray) :
    used + (joined (fitting used blocks)).size ≤ maxOutputSize := by
  induction blocks generalizing used with
  | nil => simpa [fitting] using h
  | cons block blocks ih =>
    rw [fitting]
    split
    · rename_i hfits
      have := ih hfits
      simp only [joined_cons,ByteArray.size_append]
      omega
    · exact ih h

/-- Does a step end well behind so many bytes? It must have a block, and that must fit, or it does
not matter. -/
def FillStep.passes (used : Nat) (step : FillStep) : Bool :=
  step.block?.any fun block => decide (used + block.size ≤ maxOutputSize) || step.isTolerant

/-- The blocks that steps have to write. -/
def offered (steps : List FillStep) : List ByteArray := steps.filterMap FillStep.block?

/-- Do all steps end well behind so many bytes? -/
def passes : (used : Nat) → List FillStep → Bool
  | _,[] => true
  | used,step :: rest =>
    step.passes used && passes (used + (joined (fitting used step.block?.toList)).size) rest

theorem run_limited_appendTo (block : ByteArray) (used : Nat) (stored : ByteArray) :
    ((limited appendTo block).run used).run stored =
      if used + block.size ≤ maxOutputSize then
        ((⟨block.size,none⟩,used + block.size),stored ++ block)
      else ((⟨0,some .tooLarge⟩,used),stored) := by
  rw [run_limited]
  by_cases h : used + block.size ≤ maxOutputSize
  · rw [if_neg (Nat.not_lt.mpr h),if_pos h]
    rfl
  · rw [if_pos (Nat.not_le.mp h),if_neg h]

theorem run_bind_run {σ α β : Type} (x : StateT Nat (StateM σ) α)
    (f : α → StateT Nat (StateM σ) β) (used : Nat) (s : σ) :
    ((x >>= f).run used).run s =
      let r := (x.run used).run s
      ((f r.1.1).run r.1.2).run r.2 := rfl

/-- A step takes its block if that fits. -/
theorem run_takeStep_appendTo (step : FillStep) (used : Nat) (stored : ByteArray) :
    let r := ((Fill.takeStep (limited appendTo) step).run used).run stored
    let taken := joined (fitting used step.block?.toList)
    r.1.1.isOk = step.passes used ∧ r.1.2 = used + taken.size ∧ r.2 = stored ++ taken := by
  dsimp only
  unfold FillStep.passes
  rcases Fill.takeStep_cases step with ⟨e,hb,h⟩ | ⟨block,verdict,hb,hv,h⟩
  · rw [h,hb]
    exact ⟨rfl,rfl,ByteArray.append_empty.symm⟩
  · rw [h,hb,run_bind_run,run_limited_appendTo]
    by_cases hfits : used + block.size ≤ maxOutputSize
    · have htaken : fitting used [block] = [block] := if_pos hfits
      rw [if_pos hfits,Option.toList_some,htaken,Option.any_some,decide_eq_true hfits]
      refine ⟨(hv _).trans rfl,?_,?_⟩
      · rw [joined_cons,joined_nil,ByteArray.append_empty]
        rfl
      · rw [joined_cons,joined_nil,ByteArray.append_empty]
        rfl
    · have htaken : fitting used [block] = [] := if_neg hfits
      rw [if_neg hfits,Option.toList_some,htaken,Option.any_some,decide_eq_false hfits]
      exact ⟨hv _,rfl,ByteArray.append_empty.symm⟩

/-- If all steps end well, the output has what fits of their blocks. -/
theorem run_takeSteps_appendTo (steps : List FillStep) (used : Nat) (stored : ByteArray) :
    let r := ((Fill.takeSteps (limited appendTo) steps).run used).run stored
    r.1.1.isOk = passes used steps ∧
      (r.1.1.isOk → r.2 = stored ++ joined (fitting used (offered steps))) := by
  induction steps generalizing used stored with
  | nil => exact ⟨rfl,fun _ => ByteArray.append_empty.symm⟩
  | cons step rest ih =>
    obtain ⟨hok,hused,hstored⟩ := run_takeStep_appendTo step used stored
    have hoffered : offered (step :: rest) = step.block?.toList ++ offered rest := by
      unfold offered
      cases h : step.block? <;> simp [h]
    dsimp only
    rw [Fill.takeSteps,run_bind_run,passes,← hok,hoffered,fitting_append,joined_append,
      ← ByteArray.append_assoc,← hused,← hstored]
    generalize ((Fill.takeStep (limited appendTo) step).run used).run stored = r
    rcases r with ⟨⟨e | u,used⟩,stored⟩
    · refine ⟨rfl,fun h => ?_⟩
      cases h
    · exact ih used stored

namespace Memory

/-- A commit of steps succeeds if all of them end well. Then it replaces what is stored, and
otherwise it does not. -/
theorem commit_ofSteps (memory : Memory) (steps : List FillStep) :
    let r := memory.commit (Fill.ofSteps steps)
    r.1.2.isOk = passes 0 steps ∧
      r.2.stored = if r.1.2.isOk then some (joined (fitting 0 (offered steps)))
        else memory.stored := by
  have h := run_takeSteps_appendTo steps 0 ByteArray.empty
  have hrun : ((Fill.ofSteps steps (limited appendTo)).run 0).run ByteArray.empty =
      let r := ((Fill.takeSteps (limited appendTo) steps).run 0).run ByteArray.empty
      ((((),r.1.1),r.1.2),r.2) := rfl
  dsimp only at h hrun ⊢
  unfold commit
  rw [hrun]
  generalize ((Fill.takeSteps (limited appendTo) steps).run 0).run ByteArray.empty = r at h ⊢
  rcases r with ⟨⟨e | u,used⟩,stored⟩
  · exact ⟨h.1,rfl⟩
  · have hstored : stored = joined (fitting 0 (offered steps)) := by
      simpa using h.2 rfl
    exact ⟨h.1,congrArg some hstored⟩

/-- Commits one list of steps after the other. Gives the verdicts in order. -/
def commits (memory : Memory) : List (List FillStep) → List (Except FillError Unit) × Memory
  | [] => ([],memory)
  | steps :: rest =>
    let ((_,outcome),memory) := memory.commit (Fill.ofSteps steps)
    let (outcomes,memory) := memory.commits rest
    (outcome :: outcomes,memory)

/-- The steps of the last commit that succeeded. -/
def lastDelivered (fills : List (List FillStep)) (outcomes : List (Except FillError Unit)) :
    Option (List FillStep) :=
  (((fills.zip outcomes).filter (·.2.isOk)).getLast?).map (·.1)

theorem lastDelivered_cons (steps : List FillStep) (fills : List (List FillStep))
    (outcome : Except FillError Unit) (outcomes : List (Except FillError Unit)) :
    lastDelivered (steps :: fills) (outcome :: outcomes) =
      (lastDelivered fills outcomes).or (if outcome.isOk then some steps else none) := by
  unfold lastDelivered
  rw [List.zip_cons_cons,List.filter_cons]
  cases outcome.isOk with
  | false => simp
  | true =>
    simp only [if_true,List.getLast?_cons]
    cases ((fills.zip outcomes).filter (·.2.isOk)).getLast? <;> rfl

theorem stored_commits (memory : Memory) (fills : List (List FillStep)) :
    (memory.commits fills).2.stored =
      ((lastDelivered fills (memory.commits fills).1).map fun steps =>
        joined (fitting 0 (offered steps))).or memory.stored := by
  induction fills generalizing memory with
  | nil => rfl
  | cons steps rest ih =>
    have hcommit := (memory.commit_ofSteps steps).2
    rw [commits]
    dsimp only at hcommit ⊢
    rw [ih,hcommit,lastDelivered_cons]
    cases ((memory.commit (Fill.ofSteps steps)).1.2).isOk <;>
      cases lastDelivered rest ((memory.commit (Fill.ofSteps steps)).2.commits rest).1 <;> rfl

theorem isOk_commits (memory : Memory) (fills : List (List FillStep)) :
    (memory.commits fills).1.map Except.isOk = fills.map (passes 0) := by
  induction fills generalizing memory with
  | nil => rfl
  | cons steps rest ih =>
    rw [List.map_cons,← ih,← (memory.commit_ofSteps steps).1]
    rfl

theorem lastDelivered_eq_none {fills : List (List FillStep)}
    {outcomes : List (Except FillError Unit)} (h : outcomes.length ≤ fills.length) :
    lastDelivered fills outcomes = none ↔ ∀ outcome ∈ outcomes, outcome.isOk = false := by
  unfold lastDelivered
  rw [Option.map_eq_none_iff,List.getLast?_eq_none_iff,List.filter_eq_nil_iff]
  constructor
  · intro hz outcome hmem
    rw [← List.map_snd_zip h] at hmem
    obtain ⟨pair,hpair,rfl⟩ := List.mem_map.mp hmem
    simpa using hz pair hpair
  · intro ho pair hpair
    simpa using ho pair.2 (List.of_mem_zip hpair).2

theorem commit_error {ε α : Type} {memory : Memory} {fill : Fill ε α} {e : ε}
    (h : (memory.commit fill).1.2 = .error e) : (memory.commit fill).2 = memory := by
  unfold commit at h ⊢
  generalize ((fill (limited appendTo)).run 0).run ByteArray.empty = r at h ⊢
  rcases r with ⟨⟨⟨value,e' | u⟩,used⟩,block⟩
  · rfl
  · cases h

/-- What a memory holds after any run of commits: nothing before the first one succeeds, and from
then on the blocks that fitted in the last one that succeeded. -/
theorem bytes_commits (fills : List (List FillStep)) :
    let outcomes := (({} : Memory).commits fills).1
    let memory := (({} : Memory).commits fills).2
    outcomes.map Except.isOk = fills.map (passes 0) ∧
      (memory.bytes = .error ⟨⟩ ↔ ∀ outcome ∈ outcomes, outcome.isOk = false) ∧
      (∀ steps, lastDelivered fills outcomes = some steps →
        memory.bytes = .ok (joined (fitting 0 (offered steps)))) ∧
      (∀ block, memory.bytes = .ok block → block.size ≤ maxOutputSize) ∧
      ∀ steps e, (memory.commit (Fill.ofSteps steps)).1.2 = .error e →
        (memory.commit (Fill.ofSteps steps)).2 = memory := by
  have hok := isOk_commits {} fills
  have hstored := stored_commits {} fills
  generalize ({} : Memory).commits fills = r at hok hstored ⊢
  obtain ⟨outcomes,stored⟩ := r
  have hlength : outcomes.length ≤ fills.length := by
    simpa using (congrArg List.length hok).le
  rw [Option.or_none] at hstored
  have hnone := lastDelivered_eq_none hlength
  refine ⟨hok,?_,?_,?_,fun steps e he => commit_error he⟩
  · rw [← hnone]
    unfold bytes
    rw [hstored]
    cases lastDelivered fills outcomes <;> simp
  · intro steps hsteps
    unfold bytes
    rw [hstored,hsteps]
    rfl
  · intro block hblock
    unfold bytes at hblock
    rw [hstored] at hblock
    cases hsteps : lastDelivered fills outcomes with
    | none =>
      rw [hsteps] at hblock
      cases hblock
    | some steps =>
      rw [hsteps] at hblock
      cases hblock
      simpa using size_fitting_le (Nat.zero_le _) (offered steps)

/-- A block that is too large is passed over and a smaller one behind it is taken. The commit after
it fails and changes nothing. -/
theorem bytes_of_large_block : ∃ small large : ByteArray, small.size = 2 ∧
    large.size = 16 * 1024 * 1024 ∧
    let fills : List (List FillStep) :=
      [[.write small,.write large],[.write small,.tryWrite large,.write small],
        [.write small,.refuse []]]
    let outcomes := (({} : Memory).commits fills).1
    let memory := (({} : Memory).commits fills).2
    outcomes.map Except.isOk = [false,true,false] ∧ memory.bytes = .ok (small ++ small) := by
  have hblocks : ∀ n, ∃ block : ByteArray, block.size = n := fun n =>
    ⟨⟨Array.replicate n 0⟩,Array.size_replicate⟩
  obtain ⟨small,hsmall⟩ := hblocks 2
  obtain ⟨large,hlarge⟩ := hblocks (16 * 1024 * 1024)
  refine ⟨small,large,hsmall,hlarge,?_⟩
  intro fills
  have hpasses : fills.map (passes 0) = [false,true,false] := by
    simp [fills,passes,FillStep.passes,FillStep.block?,FillStep.isTolerant,fitting,hsmall,hlarge,
      maxOutputSize]
  obtain ⟨hok,-,hlast,-⟩ := bytes_commits fills
  generalize ({} : Memory).commits fills = r at hok hlast ⊢
  obtain ⟨outcomes,memory⟩ := r
  rw [hpasses] at hok
  have hall := hok
  obtain ⟨first,rest,rfl,h₁,hok⟩ := List.map_eq_cons_iff.mp hok
  obtain ⟨second,rest,rfl,h₂,hok⟩ := List.map_eq_cons_iff.mp hok
  obtain ⟨third,rest,rfl,h₃,hok⟩ := List.map_eq_cons_iff.mp hok
  obtain rfl := List.map_eq_nil_iff.mp hok
  have hdelivered : lastDelivered fills [first,second,third] =
      some [.write small,.tryWrite large,.write small] := by
    simp [lastDelivered,fills,h₁,h₂,h₃]
  refine ⟨hall,(hlast _ hdelivered).trans ?_⟩
  simp [offered,FillStep.block?,fitting,hsmall,hlarge,maxOutputSize]

end Memory

end TeenyTiny
