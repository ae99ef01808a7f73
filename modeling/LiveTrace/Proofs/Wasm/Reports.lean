import LiveTrace.Guest.Script
import LiveTrace.Run.Stage
import LiveTrace.Wasm.Engine

/-
  Units that call hooks, as the interpreter runs them. A report is code that reads the id of the
  submission, has more operands, and calls a hook (`reporting`). In an instance that finds what
  every unit imports (`IsLinked`), the machine pauses there with these operands, and goes on behind
  the call (`resume_reporting`). A unit that imports nothing else can always be instantiated
  (`instantiate?_unit`), so all that can go wrong before is that the text of a unit is no module
  (`setUp_eq_error_iff`).
-/
namespace LiveTrace

theorem Hook.length_params (h : Hook) : h.params.length ≤ 6 := by
  cases h <;> decide

namespace Wasm

/-- The imports that every unit starts with. -/
def unitImports : List Import :=
  Hook.all.map (fun h => ⟨hookModule, h.name, .func h.type⟩) ++
    [⟨hookModule, submissionGlobal, .global ⟨.i32, false⟩⟩]

/-- A source with one byte in memory, which is an `f`. -/
def source : String := Script.Part.text ⟨0, [102]⟩

/-- The unit of this source, which may have a function to start with besides, and of the evaluation
code `entry`. -/
def unit (start : Option (List Instr)) (entry : List Instr) : Module where
  types := (Hook.all.map Hook.type ++ [entryType]).eraseDups
  imports := unitImports
  funcs := (start.toList ++ [entry]).map fun body => ⟨entryType, [], body⟩
  memories := [⟨1, none⟩]
  exports := [⟨Assembly.entryExport, .func (Hook.all.length + start.toList.length)⟩,
    ⟨memoryExport, .memory 0⟩]
  start := start.map fun _ => Hook.all.length
  data := [⟨.active 0 [.const (.i32 0)], [102]⟩]

/-- Code that calls a hook for the submission that runs. -/
def reporting (h : Hook) (operands : List Value) : List Instr :=
  .globalGet 0 :: (operands.map .const ++ [.call (Hook.all.idxOf h)])

/-- A call of a hook for the submission that runs, with more numbers as operands. -/
structure Report where
  hook : Hook
  operands : List UInt32

namespace Report

def code (r : Report) : List Instr := reporting r.hook (r.operands.map .i32)

/-- The command that comes to this code. -/
def command (r : Report) : Script.Command :=
  .call r.hook (.self :: r.operands.map fun n => .number n.toNat)

/-- A method with a loop that is passed through a number of times. -/
def passes (n : Nat) : List Report :=
  [⟨.beginMethod, [7, 0, 1, 0, 0]⟩, ⟨.beginLoop, [1]⟩] ++
  (List.replicate n
    [⟨.beginInsideLoop, [1]⟩, ⟨.logReturnI32, [2, 5]⟩, ⟨.endInsideLoop, [1]⟩]).flatten ++
  [⟨.endLoop, [1]⟩, ⟨.endMethod, [7]⟩]

/-- The text of the code that makes these reports. -/
def text (reports : List Report) : String := Script.commandsText 0 (reports.map command)

/-- A submission whose evaluation code makes these reports. -/
def submission {σ : Type} (reports : List Report) (sink : σ) : Submission σ :=
  { id := 4, project := ⟨[.text source], [], ""⟩, code := text reports, sink }

end Report

/-- The interpreter with a module that has been read: every file holds it. -/
@[reducible] def holding (m : Module) : Engine := { engine with load? := fun _ _ => some m }

/-- The interpreter with the unit whose evaluation code makes these reports. -/
@[reducible] def Report.engine (reports : List Report) : Engine :=
  holding (unit none (reports.flatMap code))

/-! ## Before a unit runs -/

/-- Setting up the interpreter goes wrong in one way only. -/
theorem setUp_eq_error_iff {σ : Type} (s : Stage σ) (o : CompilerOptions) (id : SubmissionId)
    (path : String) (outcome : RunOutcome) :
    s.setUp o id path = .error outcome ↔
      s.loadModule? (Machine.limitOf o.maxStack) path = none ∧
        outcome = .compileErrors .invalidUnit := by
  have hcreate : Engine.create o = .ok (Machine.limitOf o.maxStack) := rfl
  obtain ⟨l, hl⟩ : ∃ l, Stage.Linking.initial (Machine.limitOf o.maxStack) id = .ok l := ⟨_, rfl⟩
  unfold Stage.setUp
  rw [hcreate]
  dsimp only
  rw [hl]
  cases s.loadModule? (Machine.limitOf o.maxStack) path with
  | none => exact ⟨fun h => ⟨rfl, (Except.error.inj h).symm⟩, fun h => h.2 ▸ rfl⟩
  | some m => exact ⟨nofun, nofun⟩

/-- An instance that finds the hooks where units import them, and the id of the submission. -/
structure IsLinked (s : Store) (i : Nat) (id : SubmissionId) : Prop where
  hook (h : Hook) : ∃ a, (s.instances[i]?.bind (·.funcs[Hook.all.idxOf h]?)) = some a ∧
    s.funcs[a]? = some (.hook h)
  submission : ∃ g, (Machine.globalAddress? s i 0).bind (s.globals[·]?) = some g ∧
    g.value = .i32 id

/-- A unit that imports nothing else is linked, and its functions are what was written. -/
theorem instantiate?_unit (start : Option (List Instr)) (entry : List Instr) (limit : Engine.Core)
    (id : SubmissionId) : ∃ l i, Stage.Linking.initial limit id = .ok l ∧
      instantiate? l.linker l.store (unit start entry) = some i ∧ IsLinked i.store i.number id ∧
      (∃ a, i.store.exportedFunc? i.number Assembly.entryExport entryType = some a ∧
        i.store.funcs[a]? = some (.code i.number ⟨entryType, [], entry⟩)) ∧
      i.start.bind (i.store.funcs[·]?) =
        start.map fun body => .code i.number ⟨entryType, [], body⟩ := by
  cases start with
  | none =>
    refine ⟨_, _, rfl, rfl, ⟨fun h => ⟨Hook.all.idxOf h, ?_, ?_⟩, ⟨_, rfl, rfl⟩⟩, ⟨_, rfl, rfl⟩,
      rfl⟩ <;> cases h <;> rfl
  | some body =>
    refine ⟨_, _, rfl, rfl, ⟨fun h => ⟨Hook.all.idxOf h, ?_, ?_⟩, ⟨_, rfl, rfl⟩⟩, ⟨_, rfl, rfl⟩,
      rfl⟩ <;> cases h <;> rfl

/-! ## A report -/

namespace Machine

variable {s : Store} {f : Frame} {below : List Frame} {limit : Nat}

/-- Constants come on top of the stack, the last one first. -/
theorem runFrom_consts (vs : List Value) (code : List Instr) (stack : List Value) (fuel : Nat) :
    runFrom (vs.length + fuel)
        (.next ⟨s, { f with code := vs.map .const ++ code, stack } :: below, limit⟩) =
      runFrom fuel (.next ⟨s, { f with code, stack := vs.reverse ++ stack } :: below, limit⟩) := by
  induction vs generalizing stack with
  | nil => rw [List.length_nil, Nat.zero_add]; rfl
  | cons v vs ih =>
    have hnext : runFrom ((v :: vs).length + fuel)
        (.next ⟨s, { f with code := (v :: vs).map .const ++ code, stack } :: below, limit⟩) =
      runFrom (vs.length + fuel) (.next
        ⟨s, { f with code := vs.map .const ++ code, stack := v :: stack } :: below, limit⟩) := by
      rw [List.length_cons, Nat.add_right_comm]
      rfl
    rw [hnext, ih, List.reverse_cons, List.append_assoc]
    rfl

/-- The call of a hook takes its operands from the stack, and the machine goes on behind it. -/
theorem runFrom_call {id : SubmissionId} (hlinked : IsLinked s f.instance_ id) (h : Hook)
    {operands : List Value} (hlength : operands.length = h.params.length) (code : List Instr)
    (stack : List Value) (below : List Frame) (limit fuel : Nat) :
    runFrom (fuel + 1) (.next ⟨s, { f with
        code := .call (Hook.all.idxOf h) :: code, stack := operands.reverse ++ stack } :: below,
        limit⟩) =
      .hook h operands f.instance_ ⟨s, { f with code, stack } :: below, limit⟩ := by
  obtain ⟨a, hfunc, hhook⟩ := hlinked.hook h
  have hcount : operandCount s a = operands.reverse.length := by
    unfold operandCount
    rw [hhook, List.length_reverse, hlength]
    rfl
  have hstep : step ⟨s, { f with
        code := .call (Hook.all.idxOf h) :: code, stack := operands.reverse ++ stack } :: below,
        limit⟩ =
      .hook h operands f.instance_ ⟨s, { f with code, stack } :: below, limit⟩ := by
    unfold step exec
    dsimp only
    rw [hfunc]
    dsimp only
    unfold callAt enter
    dsimp only
    rw [hhook, hcount, List.take_left, List.drop_left, List.reverse_reverse]
  change runFrom fuel (step _) = _
  rw [hstep]
  cases fuel <;> rfl

end Machine

/-- A report pauses at its hook, with the id of the submission in front of its operands. -/
theorem resume_reporting {s : Store} {f : Frame} {id : SubmissionId}
    (hlinked : IsLinked s f.instance_ id) (h : Hook) {operands : List Value}
    (hlength : (Value.i32 id :: operands).length = h.params.length) (code : List Instr)
    (below : List Frame) (limit : Nat) :
    Engine.resume
        (Step.next ⟨s, { f with code := reporting h operands ++ code } :: below, limit⟩) =
      .hook h (.i32 id :: operands) (s.exportedMemory? f.instance_ memoryExport)
        (Step.next ⟨s, { f with code } :: below, limit⟩) := by
  obtain ⟨g, hglobal, hvalue⟩ := hlinked.submission
  have hshort := Hook.length_params h
  obtain ⟨fuel, hfuel⟩ : ∃ fuel, quantum = operands.length + (fuel + 1) + 1 :=
    ⟨quantum - operands.length - 2, by
      rw [List.length_cons] at hlength
      unfold quantum
      omega⟩
  have hread : Machine.step ⟨s, { f with code := reporting h operands ++ code } :: below, limit⟩ =
      .next ⟨s, { f with
        code := operands.map .const ++ (.call (Hook.all.idxOf h) :: code)
        stack := .i32 id :: f.stack } :: below, limit⟩ := by
    unfold reporting
    rw [List.cons_append, List.append_assoc]
    unfold Machine.step Machine.exec
    dsimp only
    rw [hglobal]
    dsimp only
    rw [hvalue]
    rfl
  have hpause : Machine.runFrom quantum
      (.next ⟨s, { f with code := reporting h operands ++ code } :: below, limit⟩) =
      .hook h (.i32 id :: operands) f.instance_ ⟨s, { f with code } :: below, limit⟩ := by
    have hcalled := Machine.runFrom_call hlinked h hlength code f.stack below limit fuel
    rw [List.reverse_cons, List.append_assoc] at hcalled
    rw [hfuel]
    change Machine.runFrom _ (Machine.step _) = _
    rw [hread, Machine.runFrom_consts]
    exact hcalled
  change Wasm.resume _ = _
  unfold Wasm.resume
  rw [hpause]

/-- A function that takes nothing is entered at its beginning. -/
theorem start_of_code {s : Store} {a i : Nat} {body : List Instr} {limit : Nat}
    (hlimit : 0 < limit) (ha : s.funcs[a]? = some (.code i ⟨entryType, [], body⟩)) :
    Machine.start s limit a = .next ⟨s, [{
      instance_ := i, locals := #[], results := 0, code := body }], limit⟩ := by
  unfold Machine.start Machine.enter
  dsimp only
  rw [ha]
  dsimp only
  rw [List.length_nil, if_neg (Nat.not_le.mpr hlimit)]
  rfl

/-- A start function that begins with a report calls its hook before anything else. -/
theorem start_reporting (h : Hook) {operands : List Value} (id : SubmissionId)
    (hlength : (Value.i32 id :: operands).length = h.params.length) (code entry : List Instr)
    {limit : Nat} (hlimit : 0 < limit) :
    ∃ l i c memory next, Stage.Linking.initial (limit : Engine.Core) id = .ok l ∧
      Engine.instantiate? (limit : Engine.Core) l.linker l.store
        (unit (some (reporting h operands ++ code)) entry) = some i ∧
      i.start = some c ∧ Engine.resume c = .hook h (.i32 id :: operands) memory next := by
  obtain ⟨l, i, hl, hi, hlinked, -, hstart⟩ :=
    instantiate?_unit (some (reporting h operands ++ code)) entry limit id
  obtain ⟨a, hnumber, ha⟩ := Option.bind_eq_some_iff.mp hstart
  have hinstance : Engine.instantiate? (limit : Engine.Core) l.linker l.store
      (unit (some (reporting h operands ++ code)) entry) =
      (instantiate? l.linker l.store (unit (some (reporting h operands ++ code)) entry)).map
        fun i => ⟨i.store, i.number, i.start.map (Machine.start i.store limit)⟩ := rfl
  rw [hi, Option.map_some, hnumber, Option.map_some, start_of_code hlimit ha] at hinstance
  have hpause := resume_reporting (f := {
    instance_ := i.number, locals := #[], results := 0, code := [] }) hlinked h hlength code []
    limit
  exact ⟨l, _, _, _, _, hl, hinstance, rfl, hpause⟩

end Wasm

end LiveTrace
