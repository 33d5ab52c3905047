import EdoPlugin.RouteRules

/-!
# Requests at the same time

Requests and background jobs of the plugin as threads of one site.  Each of their calls is a step:
a query sees everything that is committed by then, and a commit is atomic.
-/

namespace EdoPlugin

open Interaction

abbrev SiteConfig (Φ : Type) : Type := Config siteEffect PluginErr Φ Site

/-- A request whose response, or exception, concerns nobody else. -/
def unattended {α : Type} (p : Plugin α) : Plugin Unit :=
  (do
    let _ ← p
    return ()).catching fun _ => .ret ()

/-- The start of a run: every thread is about to make its first call. -/
def startThreads {Φ : Type} (phase : Φ) (programs : List (Plugin Unit)) (s : Site) : SiteConfig Φ :=
  ⟨s, programs.map fun p => ⟨phase, p⟩⟩

section Rules

variable {Φ : Type} {expected : Φ → (op : SiteOp) → op.Res → Prop} {admits : Φ → SiteOp → Prop}
  {next : Φ → (op : SiteOp) → op.Res → Φ} {phase : Φ} {α : Type}
  {Q : Except PluginErr α → Φ → Prop}

/-- A piece of the plugin's code follows the protocol. -/
abbrev PluginFollows (expected : Φ → (op : SiteOp) → op.Res → Prop) (admits : Φ → SiteOp → Prop)
    (next : Φ → (op : SiteOp) → op.Res → Φ) (p : Plugin α) (Q : Except PluginErr α → Φ → Prop)
    (phase : Φ) : Prop :=
  Conforms (E := siteEffect) expected admits next p Q phase

theorem phases_startThreads {programs : List (Plugin Unit)} {s : Site} {i : Nat} {φ : Φ}
    (h : (startThreads phase programs s).phases[i]? = some φ) : φ = phase := by
  have hmem := List.mem_of_getElem? h
  simp only [Config.phases, startThreads, List.map_map, List.mem_map, Function.comp_apply] at hmem
  obtain ⟨_, -, rfl⟩ := hmem
  rfl

theorem follows_unattended {p : Plugin α} {P : Φ → Prop}
    (hp : PluginFollows expected admits next p (fun _ φ => P φ) phase) :
    PluginFollows expected admits next (unattended p) (fun _ φ => P φ) phase := by
  have hbody : PluginFollows expected admits next (do
      let _ ← p
      return ()) (fun _ φ => P φ) phase :=
    Conforms.andThen hp (fun _ _ h => h) fun _ _ h => h
  apply wp_catching.mpr
  apply wp_mono hbody
  intro out φ hφ
  cases out with
  | ok value => exact hφ
  | error err => exact hφ

theorem follows_select {f : PluginDb → Plugin α} (hadmits : admits phase .select)
    (h : ∀ db, expected phase .select db →
      PluginFollows expected admits next (f db) Q (next phase .select db)) :
    PluginFollows expected admits next (select >>= f) Q phase :=
  Conforms.perform hadmits h

theorem follows_commit {writes : List Write} {f : Unit → Plugin α}
    (hadmits : admits phase (.commit writes))
    (hok : PluginFollows expected admits next (f ()) Q (next phase (.commit writes) (.ok ())))
    (herror : ∀ err, Q (.error (.flush err)) (next phase (.commit writes) (.error err))) :
    PluginFollows expected admits next (commit writes >>= f) Q phase := by
  apply Conforms.andThen (R := fun out φ => (out = .ok () ∧ φ = next phase (.commit writes) (.ok ())) ∨
    ∃ err, out = .error (.flush err) ∧ φ = next phase (.commit writes) (.error err))
  · apply Conforms.perform hadmits
    intro done _
    cases done with
    | ok _ => exact Or.inl ⟨rfl, rfl⟩
    | error err => exact Or.inr ⟨err, rfl, rfl⟩
  · intro _ φ h
    rcases h with ⟨-, rfl⟩ | ⟨err, h, -⟩
    · exact hok
    · cases h
  · intro _ φ h
    rcases h with ⟨h, -⟩ | ⟨err, h, rfl⟩
    · cases h
    · cases h
      exact herror err

end Rules

/-- What an executable schedule of a site computes is reachable. -/
theorem reach_of_siteSchedule {Φ : Type} {next : Φ → (op : SiteOp) → op.Res → Φ} {rpc : RpcSem}
    {call : RpcExec} {check : Site → List Φ → Event siteEffect → Bool}
    {schedule : List (Nat × ((op : SiteOp) → op.Choice))} {c c' : SiteConfig Φ}
    (hrpc : rpc.Executes call)
    (h : (siteMachine call).runChecked next check schedule c = some c') :
    Reach (siteSem rpc) next (fun s phases event => check s phases event = true) c c' :=
  Machine.reach_of_runChecked (fun _ _ _ _ _ hexec => siteSem_of_exec hrpc hexec) h

end EdoPlugin
