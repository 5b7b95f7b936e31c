import Metaobject.Extraction
import Metaobject.Proofs.Proxy
import Metaobject.Proofs.World.Answering

/-!
Which method some code calls. A proxy that keeps the first method invoked on it is called by name,
so what is found out is the entry of its table, however the call goes on.
-/
namespace Metaobject

variable {σ : Type} {client : Client σ} {serve : Serve σ} {w : World σ}

/-- An invocation of a recorder is answered with a zero, whether or not its method is kept. -/
theorem handle_record (cell : Cell MethodRef) (i : Invocation) (w : World σ) :
    (Handler.record cell).handle client serve i w =
      (.ok (some (w.hierarchy.resultType i.method).zero), (recordFirst cell i.method w).2) := by
  have hRecord : recordFirst cell i.method w = (.ok ⟨⟩, (recordFirst cell i.method w).2) := rfl
  have hSame : (recordFirst cell i.method w).2.hierarchy = w.hierarchy := by
    rw [recordFirst, Run.modify_apply]
    dsimp only
    split <;> rfl
  rw [Handler.handle, Run.bind_ok hRecord, Run.bind_ok (Run.hierarchy_apply _), hSame]
  rfl

/-- It is kept if none has been kept yet. -/
theorem recordFirst_empty {cell : Cell MethodRef} (hEmpty : w.firstMethods.read cell = none)
    (m : MethodRef) :
    (recordFirst cell m w).2 = { w with firstMethods := w.firstMethods.fill cell m } := by
  rw [recordFirst, Run.modify_apply, hEmpty]

/-- So a call by name is kept as the entry of the table. -/
theorem call_recorder {o : ObjectRef} {made : ProxyClass} {contracts : List ClassId}
    {cell : Cell MethodRef} (ho : w.object? o = some (.proxy made (.single (.record cell))))
    (hCls : o.cls = made.cls) (hMade : made.Implements w.hierarchy contracts)
    (hEmpty : w.firstMethods.read cell = none) {name : String} {m : MethodRef}
    (hEntry : Table.find? made.table (name, 0) = some m) (depth : Nat) :
    ∃ v, o.call (perform client (depth + 1)) name [] w =
      (.ok v, { w with firstMethods := w.firstMethods.fill cell m }) := by
  obtain ⟨hKind, hArity, hSubtype⟩ := hMade.callable hEntry
  rw [← hCls] at hSubtype
  refine ⟨(w.hierarchy.resultType m).zero, ?_⟩
  rw [ObjectRef.call_apply ho hEntry, ObjectRef.invoke_nullary hKind hArity hSubtype,
    perform_ask ho, ← recordFirst_empty hEmpty]
  exact Chain.resolve_first (handle_record cell _ w)

/-- A cell that has just been made is empty, and then holds what it is filled with. -/
theorem Store.read_fill_fresh {α : Type} (s : Store α) (a : α) :
    s.fresh.2.read s.fresh.1 = none ∧ (s.fresh.2.fill s.fresh.1 a).read s.fresh.1 = some a := by
  rw [read_fill _ _ _ _ s.holds_fresh, if_pos rfl]
  exact ⟨s.read_fresh_new, rfl⟩

/-- A recorder is made as its proxy is, with a new cell. -/
theorem recorder_of_ok {c : ClassId} {o : ObjectRef} {v : World σ}
    (hBuild : (ProxyBuilder.single c (.record w.firstMethods.fresh.1)).build
      { w with firstMethods := w.firstMethods.fresh.2 } = (.ok o, v)) :
    recorder c w = (.ok (w.firstMethods.fresh.1, o), v) := by
  have hCell : (modifyGet fun w : World σ => (w.firstMethods.fresh.1,
      { w with firstMethods := w.firstMethods.fresh.2 }) : Run ProxyError σ _) w =
      (.ok w.firstMethods.fresh.1, { w with firstMethods := w.firstMethods.fresh.2 }) := rfl
  exact (Run.bind_ok hCell).trans (Run.bind_ok hBuild)

theorem recorder_of_error {c : ClassId} {e : Stop ProxyError} {v : World σ}
    (hBuild : (ProxyBuilder.single c (.record w.firstMethods.fresh.1)).build
      { w with firstMethods := w.firstMethods.fresh.2 } = (.error e, v)) :
    recorder c w = (.error e, v) := by
  have hCell : (modifyGet fun w : World σ => (w.firstMethods.fresh.1,
      { w with firstMethods := w.firstMethods.fresh.2 }) : Run ProxyError σ _) w =
      (.ok w.firstMethods.fresh.1, { w with firstMethods := w.firstMethods.fresh.2 }) := rfl
  exact (Run.bind_ok hCell).trans (Run.bind_error hBuild)

/-- For an interface it can be made. -/
theorem recorder_apply {c : ClassId} (hSound : w.Sound) (hc : w.hierarchy.isInterface c = true) :
    ∃ o start made, recorder c w = (.ok (w.firstMethods.fresh.1, o), start) ∧
      ProxyBuilder.Yields [c] (.single (.record w.firstMethods.fresh.1))
        { w with firstMethods := w.firstMethods.fresh.2 } start o made := by
  let fresh : World σ := { w with firstMethods := w.firstMethods.fresh.2 }
  have hFresh : fresh.Sound := hSound.mono (.refl _) rfl rfl
  obtain ⟨o, start, made, hBuild, hYields⟩ :=
    ProxyBuilder.single_ok (.record w.firstMethods.fresh.1) hFresh hc
  exact ⟨o, start, made, recorder_of_ok hBuild, hYields⟩

theorem recorded_apply {ε : Type} (cell : Cell MethodRef) (w : World σ) :
    (recorded cell : Run ε σ _) w = (.ok (w.firstMethods.read cell), w) := rfl

/-- Once the recorder has been made, it is the code that changes the world. -/
theorem extractMethod_snd {c : ClassId} {script : ObjectRef → Script σ Value}
    {cell : Cell MethodRef} {o : ObjectRef} {start : World σ}
    (hMade : recorder c w = (.ok (cell, o), start)) :
    (extractMethod serve c script w).2 = ((script o).run serve start).2 := by
  rw [extractMethod, Run.bind_ok hMade]
  dsimp only
  rcases hRun : (script o).run serve start with ⟨(e | _) | a, v⟩
  · rw [Run.bind_ok (Run.attempt_raised hRun), Run.bind_ok (recorded_apply cell v)]
    cases v.firstMethods.read cell <;> rfl
  · rw [Run.bind_error (Run.attempt_exhausted hRun)]
  · rw [Run.bind_ok (Run.attempt_ok hRun), Run.bind_ok (recorded_apply cell v)]
    cases v.firstMethods.read cell <;> rfl

/-- To find out what code calls, it is run on a recorder. -/
theorem extractMethod_apply {c : ClassId} {script : ObjectRef → Script σ Value}
    {cell : Cell MethodRef} {o : ObjectRef} {start : World σ}
    (hMade : recorder c w = (.ok (cell, o), start))
    (hEnds : ((script o).run serve start).1 ≠ .error .exhausted) :
    extractMethod serve c script w =
      (match ((script o).run serve start).2.firstMethods.read cell,
          ((script o).run serve start).1 with
        | some m, _ => .ok m
        | none, .error e => .error e
        | none, .ok _ => .error (.raised (.noMethodRecorded c)),
      ((script o).run serve start).2) := by
  refine (Run.bind_ok hMade).trans ?_
  rcases hRun : (script o).run serve start with ⟨r, v⟩
  rw [hRun] at hEnds
  cases r with
  | ok a =>
      refine (Run.bind_ok (Run.attempt_ok hRun)).trans
        ((Run.bind_ok (recorded_apply cell v)).trans ?_)
      dsimp only
      cases v.firstMethods.read cell <;> rfl
  | error e =>
      cases e with
      | exhausted => exact absurd rfl hEnds
      | raised e =>
          refine (Run.bind_ok (Run.attempt_raised hRun)).trans
            ((Run.bind_ok (recorded_apply cell v)).trans ?_)
          dsimp only
          cases v.firstMethods.read cell <;> rfl

/-- Code that calls a method by name is found to call the entry of the table. -/
theorem extractMethod_call {c : ClassId} (hSound : w.Sound)
    (hc : w.hierarchy.isInterface c = true) {name : String} {m : MethodRef}
    (hEntry : Table.find? (ProxyClass.tableOf w.hierarchy [c]) (name, 0) = some m) (depth : Nat) :
    ∃ v, extractMethod (perform client (depth + 1)) c (fun a => .call a name [] .ofResult) w =
      (.ok m, v) := by
  obtain ⟨o, u, made, hMade, hYields⟩ := recorder_apply hSound hc
  have hTable : made.table = ProxyClass.tableOf w.hierarchy [c] := by
    refine hYields.implementing.table_eq hYields.growsTo.hierarchy fun d hd => ?_
    rw [List.mem_singleton.mp hd]
    exact Hierarchy.declared_of_isInterface hc
  -- Making the recorder leaves its cell empty, so the call below is the first to be kept.
  have hCells : u.firstMethods = w.firstMethods.fresh.2 := hYields.cells.firstMethods
  obtain ⟨hEmpty, hFilled⟩ := Store.read_fill_fresh w.firstMethods m
  rw [← hTable] at hEntry
  rw [← hCells] at hEmpty hFilled
  obtain ⟨a, hCall⟩ : ∃ a, o.call (perform client (depth + 1)) name [] u = _ :=
    call_recorder hYields.object hYields.cls hYields.implementing hEmpty hEntry depth
  have hScript : (Script.call o name [] .ofResult).run (perform client (depth + 1)) u =
      (.ok a, { u with firstMethods := u.firstMethods.fill w.firstMethods.fresh.1 m }) :=
    Run.bind_ok (Run.attempt_ok hCall)
  refine ⟨{ u with firstMethods := u.firstMethods.fill w.firstMethods.fresh.1 m }, ?_⟩
  rw [extractMethod_apply hMade (by rw [hScript]; nofun), hScript]
  dsimp only
  rw [hFilled]

end Metaobject
