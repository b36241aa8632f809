import Criteria.Predicate.Recording
import Mathlib.Data.List.Perm.Basic

set_option autoImplicit false

namespace Criteria

variable {σ ε : Type}

namespace BackendCall

def operands : BackendCall → List Nat
  | test _ _ => []
  | combine _ operands => operands
  | negate operand => [operand]

def perform (b : Backend σ ε) (results : List ε) (s : σ) : BackendCall → Option (ε × σ)
  | test path t => some (b.test path t s)
  | combine op operands => (operands.mapM (results[·]?)).map fun xs => b.combine op xs s
  | negate operand => results[operand]?.map fun x => b.negate x s

def replay (b : Backend σ ε) : List BackendCall → List ε → σ → Option (List ε × σ)
  | [], _, s => some ([], s)
  | call :: rest, results, s => do
    let (x, s) ← call.perform b results s
    let (made, s) ← replay b rest (results ++ [x]) s
    pure (x :: made, s)

theorem replay_append (b : Backend σ ε) (calls more : List BackendCall)
    {results made made' : List ε} {s s' s'' : σ}
    (first : replay b calls results s = some (made, s'))
    (second : replay b more (results ++ made) s' = some (made', s'')) :
    replay b (calls ++ more) results s = some (made ++ made', s'') := by
  induction calls generalizing results made s with
  | nil =>
    obtain ⟨rfl, rfl⟩ : made = [] ∧ s = s' := by simpa [replay] using first
    simpa using second
  | cons call rest ih =>
    simp only [replay, Option.bind_eq_bind, Option.bind_eq_some_iff, Prod.exists] at first
    obtain ⟨x, t, performed, made, u, replayed, same⟩ := first
    obtain ⟨rfl, rfl⟩ : x :: made = _ ∧ u = s' := by simpa using same
    simp [replay, performed, ih replayed (by simpa using second)]

/-- Calls numbered from `first` on. Operands were made before and are passed in the order in which
they were made. What a call returns is passed once, or it is `left` for calls to come. -/
structure BottomUp (first : Nat) (calls : List BackendCall) (left : List Nat) : Prop where
  earlier : ∀ i call, calls[i]? = some call → ∀ n ∈ call.operands, first ≤ n ∧ n < first + i
  ordered : ∀ call ∈ calls, call.operands.Pairwise (· < ·)
  once : (calls.flatMap operands ++ left).Perm (List.range' first calls.length)
  leftOrdered : left.Pairwise (· < ·)

namespace BottomUp

variable {first : Nat} {calls more : List BackendCall} {left left' : List Nat}

theorem nil (first : Nat) : BottomUp first [] [] := by
  constructor <;> simp

theorem left_made (built : BottomUp first calls left) {n : Nat} (mem : n ∈ left) :
    first ≤ n ∧ n < first + calls.length := by
  have made : n ∈ List.range' first calls.length :=
    built.once.subset (List.mem_append_right _ mem)
  simpa using made

theorem append (built : BottomUp first calls left)
    (behind : BottomUp (first + calls.length) more left') :
    BottomUp first (calls ++ more) (left ++ left') where
  earlier i call found n passed := by
    rw [List.getElem?_append] at found
    split at found
    · exact built.earlier i call found n passed
    · have := behind.earlier _ call found n passed
      omega
  ordered call mem := by
    rcases List.mem_append.mp mem with mem | mem
    · exact built.ordered call mem
    · exact behind.ordered call mem
  once := by
    rw [List.length_append, ← List.range'_append_1, List.flatMap_append, List.append_assoc]
    refine .trans ?_ (built.once.append behind.once)
    rw [List.append_assoc]
    exact (List.perm_append_comm_assoc _ _ _).append_left _
  leftOrdered := by
    refine List.pairwise_append.mpr
      ⟨built.leftOrdered, behind.leftOrdered, fun m leftM n leftN => ?_⟩
    have := built.left_made leftM
    have := behind.left_made leftN
    omega

theorem snoc (built : BottomUp first calls left) (call : BackendCall)
    (takes : call.operands = left) : BottomUp first (calls ++ [call]) [first + calls.length] where
  earlier i last found n passed := by
    rw [List.getElem?_append] at found
    split at found
    · exact built.earlier i last found n passed
    · obtain ⟨inside, rfl⟩ := List.getElem?_eq_some_iff.mp found
      have := built.left_made (takes ▸ List.getElem_singleton inside ▸ passed)
      omega
  ordered last mem := by
    rcases List.mem_append.mp mem with mem | mem
    · exact built.ordered last mem
    · rw [List.mem_singleton.mp mem, takes]
      exact built.leftOrdered
  once := by
    rw [List.flatMap_append, List.flatMap_singleton, takes, List.length_append,
      List.length_singleton, List.range'_1_concat]
    exact built.once.append_right _
  leftOrdered := List.pairwise_singleton _ _

end BottomUp

end BackendCall

open BackendCall (replay replay_append)

namespace Backend

def logged (make : StateM σ ε) : StateM (σ × List ε) ε :=
  fun (s, log) => let (x, s') := make s; (x, s', log ++ [x])

def traced (b : Backend σ ε) : Backend (σ × List ε) ε where
  test path test := logged (b.test path test)
  combine op operands := logged (b.combine op operands)
  negate operand := logged (b.negate operand)

def rebuilding : Backend Unit Predicate where
  test path test := pure (.leaf path test)
  combine op operands := pure (.group op operands)
  negate operand := pure (.not operand)

theorem perform_traced (b : Backend σ ε) (call : BackendCall) (results log : List ε) (s : σ) :
    call.perform b.traced results (s, log) =
      (call.perform b results s).map fun (x, s') => (x, s', log ++ [x]) := by
  cases call with
  | test path test => rfl
  | combine op operands =>
    simp only [BackendCall.perform, Option.map_map]
    rfl
  | negate operand =>
    simp only [BackendCall.perform, Option.map_map]
    rfl

theorem replay_traced (b : Backend σ ε) (calls : List BackendCall) (results log : List ε) (s : σ) :
    replay b.traced calls results (s, log) =
      (replay b calls results s).map fun (made, s') => (made, s', log ++ made) := by
  induction calls generalizing results log s with
  | nil => simp [replay]
  | cons call rest ih =>
    simp only [replay, perform_traced]
    cases call.perform b results s with
    | none => rfl
    | some made =>
      cases replayed : replay b rest (results ++ [made.1]) made.2 <;> simp [ih, replayed]

end Backend

namespace Predicate

mutual

def calls (first : Nat) : Predicate → List BackendCall
  | leaf path test => [.test path test]
  | group op operands => operandCalls first operands ++ [.combine op (roots first operands)]
  | not p => p.calls first ++ [.negate (first + p.size - 1)]

def operandCalls (first : Nat) : List Predicate → List BackendCall
  | [] => []
  | p :: rest => p.calls first ++ operandCalls (first + p.size) rest

def roots (first : Nat) : List Predicate → List Nat
  | [] => []
  | p :: rest => (first + p.size - 1) :: roots (first + p.size) rest

end

section Steps

variable (b : Backend σ ε) (s : σ)

theorem lower_group (op : Connective) (operands : List Predicate) :
    (group op operands).lower b s =
      b.combine op (lowerAll b operands s).1 (lowerAll b operands s).2 :=
  rfl

theorem lower_not (p : Predicate) : (not p).lower b s = b.negate (p.lower b s).1 (p.lower b s).2 :=
  rfl

theorem lowerAll_cons (p : Predicate) (rest : List Predicate) :
    lowerAll b (p :: rest) s =
      ((p.lower b s).1 :: (lowerAll b rest (p.lower b s).2).1,
        (lowerAll b rest (p.lower b s).2).2) :=
  rfl

end Steps

theorem getElem?_root {p : Predicate} {made : List ε} (count : made.length + 1 = p.size)
    (results more : List ε) (x : ε) :
    (results ++ (made ++ x :: more))[results.length + p.size - 1]? = some x := by
  have root : results.length + p.size - 1 = results.length + made.length := by omega
  simp [root]

mutual

theorem replay_calls (b : Backend σ ε) (p : Predicate) (results : List ε) (s : σ) :
    ∃ made, made.length + 1 = p.size ∧ replay b (p.calls results.length) results s =
      some (made ++ [(p.lower b s).1], (p.lower b s).2) := by
  cases p with
  | leaf path test => exact ⟨[], rfl, rfl⟩
  | group op operands =>
    obtain ⟨made, count, replayed, passed⟩ := replay_operandCalls b operands results s
    refine ⟨made, by simp only [size]; omega, replay_append b _ _ replayed ?_⟩
    simp [replay, BackendCall.perform, passed, lower_group]
  | not p =>
    obtain ⟨made, count, replayed⟩ := replay_calls b p results s
    refine ⟨made ++ [(p.lower b s).1], by simp [size]; omega, replay_append b _ _ replayed ?_⟩
    simp [replay, BackendCall.perform, getElem?_root count, lower_not]

theorem replay_operandCalls (b : Backend σ ε) (ps : List Predicate) (results : List ε) (s : σ) :
    ∃ made, made.length = sizes ps ∧
      replay b (operandCalls results.length ps) results s = some (made, (lowerAll b ps s).2) ∧
      (roots results.length ps).mapM ((results ++ made)[·]?) = some (lowerAll b ps s).1 := by
  match ps with
  | [] => exact ⟨[], rfl, rfl, rfl⟩
  | p :: rest =>
    obtain ⟨made, count, replayed⟩ := replay_calls b p results s
    have behind : (results ++ (made ++ [(p.lower b s).1])).length = results.length + p.size := by
      simp; omega
    obtain ⟨more, counts, moreReplayed, passed⟩ :=
      replay_operandCalls b rest (results ++ (made ++ [(p.lower b s).1])) (p.lower b s).2
    -- The numbers of the calls for `rest` count those for `p` in.
    rw [behind] at moreReplayed passed
    refine ⟨made ++ [(p.lower b s).1] ++ more, by simp [sizes]; omega,
      replay_append b _ _ replayed moreReplayed, ?_⟩
    simp only [List.append_assoc, List.singleton_append] at passed
    simp [roots, getElem?_root count, passed, lowerAll_cons]

end

theorem lower_traced (b : Backend σ ε) (p : Predicate) (s : σ) (log : List ε) :
    ∃ made, made.length + 1 = p.size ∧
      p.lower b.traced (s, log) =
        ((p.lower b s).1, (p.lower b s).2, log ++ made ++ [(p.lower b s).1]) := by
  obtain ⟨made, count, replayed⟩ := replay_calls b p [] s
  obtain ⟨made', -, traced⟩ := replay_calls b.traced p [] (s, log)
  -- Both are the same calls, so the log of one is the list of results of the other.
  rw [b.replay_traced, replayed] at traced
  simp only [Option.map_some, Option.some.injEq, Prod.mk.injEq, List.append_singleton_inj] at traced
  obtain ⟨⟨-, result⟩, state⟩ := traced
  refine ⟨made, count, Prod.ext result.symm ?_⟩
  rw [← state, List.append_assoc]

mutual

theorem calls_length (p : Predicate) (first : Nat) : (p.calls first).length = p.size := by
  cases p with
  | leaf path test => rfl
  | group op operands => simp [calls, size, operandCalls_length operands first]; omega
  | not p => simp [calls, size, calls_length p first]; omega

theorem operandCalls_length (ps : List Predicate) (first : Nat) :
    (operandCalls first ps).length = sizes ps := by
  match ps with
  | [] => rfl
  | p :: rest => simp [operandCalls, sizes, calls_length p, operandCalls_length rest]

end

mutual

theorem lower_recorder (p : Predicate) (before : Array BackendCall) :
    p.lower recorder before =
      (before.size + p.size - 1, before ++ (p.calls before.size).toArray) := by
  cases p with
  | leaf path test => simp [lower, recorder, record, calls, size]
  | group op operands =>
    rw [lower_group, lowerAll_recorder]
    refine Prod.ext ?_ ?_
    · simp [recorder, record, size, operandCalls_length]
      omega
    · simp [recorder, record, calls]
  | not p =>
    rw [lower_not, lower_recorder]
    refine Prod.ext ?_ ?_
    · simp [recorder, record, size, calls_length]
      omega
    · simp [recorder, record, calls]

theorem lowerAll_recorder (ps : List Predicate) (before : Array BackendCall) :
    lowerAll recorder ps before =
      (roots before.size ps, before ++ (operandCalls before.size ps).toArray) := by
  match ps with
  | [] => simp [lowerAll, roots, operandCalls]; rfl
  | p :: rest =>
    rw [lowerAll_cons, lower_recorder, lowerAll_recorder]
    simp [roots, operandCalls, calls_length]

end

example (a b : AttributePath) :
    (group .and [leaf a .null, not (leaf b .null)]).lower recorder #[] =
      (3, #[.test a .null, .test b .null, .negate 1, .combine .and [0, 2]]) :=
  rfl

mutual

theorem calls_bottomUp (p : Predicate) (first : Nat) :
    BackendCall.BottomUp first (p.calls first) [first + p.size - 1] := by
  cases p with
  | leaf path test => exact .snoc (.nil first) (.test path test) rfl
  | group op operands =>
    have last : first + (group op operands).size - 1 =
        first + (operandCalls first operands).length := by
      simp only [size, operandCalls_length]
      omega
    rw [last]
    exact (operandCalls_bottomUp operands first).snoc (.combine op (roots first operands)) rfl
  | not p =>
    have last : first + (not p).size - 1 = first + (p.calls first).length := by
      simp only [size, calls_length]
      omega
    rw [last]
    exact (calls_bottomUp p first).snoc (.negate (first + p.size - 1)) rfl

theorem operandCalls_bottomUp (ps : List Predicate) (first : Nat) :
    BackendCall.BottomUp first (operandCalls first ps) (roots first ps) := by
  match ps with
  | [] => exact .nil first
  | p :: rest =>
    refine (calls_bottomUp p first).append ?_
    rw [calls_length]
    exact operandCalls_bottomUp rest (first + p.size)

end

mutual

theorem lower_rebuilding (p : Predicate) : p.lower Backend.rebuilding () = (p, ()) := by
  cases p with
  | leaf path test => rfl
  | group op operands =>
    rw [lower_group, lowerAll_rebuilding]
    rfl
  | not p =>
    rw [lower_not, lower_rebuilding]
    rfl

theorem lowerAll_rebuilding (ps : List Predicate) :
    lowerAll Backend.rebuilding ps () = (ps, ()) := by
  match ps with
  | [] => rfl
  | p :: rest => rw [lowerAll_cons, lower_rebuilding, lowerAll_rebuilding]

end

/-- Lowering asks for every node once, from the leaves upward. A backend with a log has as many
results in it as there are nodes, the last of which is returned. The calls that the recorder sees
build on earlier calls, each on those of its operands in their order, and every call but the last
is built on once. Made again they give back the predicate, and with any backend they are the
lowering. -/
theorem lower_bottomUp (p : Predicate) :
    (∀ {σ ε : Type} (b : Backend σ ε) (s : σ) (log : List ε),
      ∃ made, made.length + 1 = p.size ∧
        p.lower b.traced (s, log) =
          ((p.lower b s).1, (p.lower b s).2, log ++ made ++ [(p.lower b s).1])) ∧
    ∀ before : Array BackendCall, ∃ calls : List BackendCall,
      p.lower recorder before = (before.size + p.size - 1, before ++ calls.toArray) ∧
      calls.length = p.size ∧
      BackendCall.BottomUp before.size calls [before.size + p.size - 1] ∧
      (∀ results : Vector Predicate before.size,
        ∃ parts, replay Backend.rebuilding calls results.toList () = some (parts ++ [p], ())) ∧
      ∀ {σ ε : Type} (b : Backend σ ε) (s : σ) (results : Vector ε before.size),
        ∃ made, replay b calls results.toList s =
          some (made ++ [(p.lower b s).1], (p.lower b s).2) := by
  refine ⟨fun b s log => lower_traced b p s log, fun before => ⟨p.calls before.size,
    lower_recorder p before, calls_length p _, calls_bottomUp p _, fun results => ?_,
    fun b s results => ?_⟩⟩
  · obtain ⟨parts, -, replayed⟩ := replay_calls Backend.rebuilding p results.toList ()
    rw [lower_rebuilding, Vector.length_toList] at replayed
    exact ⟨parts, replayed⟩
  · obtain ⟨made, -, replayed⟩ := replay_calls b p results.toList s
    rw [Vector.length_toList] at replayed
    exact ⟨made, replayed⟩

end Predicate

end Criteria
