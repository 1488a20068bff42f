import Bourse.Cli.Run

/-! What runs give. A run adds to the transcript and never looks at it, so that what it gives depends
on the session alone. Steps are followed one after another: those that are done, and the first that
stops. -/
namespace Bourse.Cli.Run

variable {α β ε : Type} {session : Session}

/-- Whether a run has a result in a session, whatever it finds in the transcript. -/
def Gives (session : Session) (run : Run α) (result : Except Fault α) : Prop :=
  ∀ transcript, ((run.run session).run.run transcript).1 = result

theorem gives_pure (a : α) : Gives session (pure a) (.ok a) := fun _ => rfl

theorem gives_throw (fault : Fault) : Gives session (throw fault : Run α) (.error fault) :=
  fun _ => rfl

theorem gives_read : Gives session read (.ok session) := fun _ => rfl

theorem gives_modify (f : Transcript → Transcript) : Gives session (modify f) (.ok ()) := fun _ => rfl

section Steps

variable {run : Run α} {next : α → Run β}

/-- A step that is done leads to the next one. -/
theorem Gives.bind {a : α} {result : Except Fault β} (hrun : Gives session run (.ok a))
    (hnext : Gives session (next a) result) : Gives session (run >>= next) result := by
  intro transcript
  -- the next step finds another transcript, which makes no difference to it
  rcases hend : (run.run session).run.run transcript with ⟨first, after⟩
  have hfirst : first = .ok a := by rw [← hrun transcript, hend]
  have hgo : ((run >>= next).run session).run.run transcript =
      ((next a).run session).run.run after := by
    simp only [ReaderT.run_bind, ExceptT.run_bind, StateT.run_bind]
    rw [hend, hfirst]
    rfl
  rw [hgo]
  exact hnext after

/-- A step that stops stops those behind it. -/
theorem Gives.stop {fault : Fault} (hrun : Gives session run (.error fault)) :
    Gives session (run >>= next) (.error fault) := by
  intro transcript
  rcases hend : (run.run session).run.run transcript with ⟨first, after⟩
  have hfirst : first = .error fault := by rw [← hrun transcript, hend]
  have hstop : ((run >>= next).run session).run.run transcript = (.error fault, after) := by
    simp only [ReaderT.run_bind, ExceptT.run_bind, StateT.run_bind]
    rw [hend, hfirst]
    rfl
  rw [hstop]

end Steps

/-- Steps over some items that are all done. -/
theorem gives_forIn {items : List α} {step : α → Run Unit}
    (h : ∀ item, Gives session (step item) (.ok ())) :
    Gives session (forIn items PUnit.unit fun item _ => do
      step item
      pure (ForInStep.yield PUnit.unit)) (.ok ()) := by
  induction items with
  | nil => exact gives_pure ()
  | cons item rest ih =>
    rw [List.forIn_cons]
    exact Gives.bind (Gives.bind (h item) (gives_pure _)) ih

/-! The steps of commands -/

theorem gives_say (text : String) : Gives session (say text) (.ok ()) := gives_modify _

theorem gives_warn (text : String) : Gives session (warn text) (.ok ()) := gives_modify _

theorem gives_tell (notices : List Notice) : Gives session (tell notices) (.ok ()) := by
  apply Gives.bind gives_read
  induction notices.filter (shows session) with
  | nil => exact gives_pure ()
  | cons notice rest ih => exact Gives.bind (gives_warn notice.line) ih

theorem gives_need_of_ok {wrap : ε → Fault} {step : Except ε α} {a : α} (h : step = .ok a) :
    Gives session (need wrap step) (.ok a) := by
  rw [h]
  exact gives_pure a

theorem gives_need_of_error {wrap : ε → Fault} {step : Except ε α} {e : ε} (h : step = .error e) :
    Gives session (need wrap step) (.error (wrap e)) := by
  rw [h]
  exact gives_throw (wrap e)

theorem gives_needFetched {fetched : Fetched α} {a : α} (h : fetched.outcome = .ok a) :
    Gives session (needFetched fetched) (.ok a) :=
  Gives.bind (gives_modify _) (Gives.bind (gives_tell _) (gives_need_of_ok h))

theorem gives_collect (arguments : List String) :
    Gives session (collect arguments)
      (.ok (Symbols.collect arguments session.input session.terminal).result) :=
  Gives.bind gives_read (Gives.bind (gives_tell _) (gives_pure _))

theorem gives_save {path : String} (h : writeFault? session.world.stored path = none)
    (text : String) : Gives session (save path text) (.ok ()) := by
  apply Gives.bind gives_read
  rw [h]
  exact gives_modify _

theorem gives_save_of_fault {path : String} {fault : WriteFault}
    (h : writeFault? session.world.stored path = some fault) (text : String) :
    Gives session (save path text) (.error (.write fault)) := by
  apply Gives.bind gives_read
  rw [h]
  exact gives_throw (.write fault)

end Bourse.Cli.Run
