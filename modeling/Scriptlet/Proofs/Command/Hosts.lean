import Scriptlet.Command.World
import Scriptlet.Proofs.Session.Transcript
/-!
# Hosts that show a scene

A host may keep more than a scene, such as the time, its files and its input, as long as the
operations on variables and on the two channels do to the scene that it shows what they are
for.  What the command line does on such a host is said about that scene alone; of the clock
nothing is known, and of files and the input nothing but what the one read of them yields.
-/

namespace Scriptlet.Command

variable {σ α β : Type} {view : σ → Scene} {scene : Scene}

/-! ## Actions on a scene -/

theorem run_bind_of_run {γ : Type} {first : StateM σ α} {second : StateM σ β} {b : β} {s s' : σ}
    (h : second.run (first.run s).2 = (b, s')) (next : α → β → StateM σ γ) :
    (first >>= fun a => second >>= next a).run s = (next (first.run s).1 b).run s' := by
  rw [StateT.run_bind]
  change (second >>= next (first.run s).1).run (first.run s).2 = _
  rw [StateT.run_bind, h]
  rfl

/-- From every state that shows a scene, the action comes to a result and to a state that
shows a scene such as the condition says. -/
def Ensures (view : σ → Scene) (scene : Scene) (action : StateM σ α)
    (condition : α → Scene → Prop) : Prop :=
  ∀ s, view s = scene → condition (action.run s).1 (view (action.run s).2)

namespace Ensures

variable {action : StateM σ α} {condition : α → Scene → Prop}

theorem of_pure {a : α} (h : condition a scene) : Ensures view scene (pure a) condition := by
  rintro s rfl
  exact h

theorem bind {next : α → StateM σ β} {condition' : β → Scene → Prop}
    (h : Ensures view scene action condition)
    (hnext : ∀ a scene', condition a scene' → Ensures view scene' (next a) condition') :
    Ensures view scene (action >>= next) condition' := by
  intro s hs
  exact hnext _ _ (h s hs) _ rfl

theorem mono {condition' : α → Scene → Prop} (h : Ensures view scene action condition)
    (himp : ∀ a scene', condition a scene' → condition' a scene') :
    Ensures view scene action condition' :=
  fun s hs => himp _ _ (h s hs)

theorem bind_except {action : ExceptT Diagnostic (StateM σ) α}
    {next : α → ExceptT Diagnostic (StateM σ) β}
    {condition : Except Diagnostic α → Scene → Prop}
    {condition' : Except Diagnostic β → Scene → Prop}
    (h : Ensures view scene action.run condition)
    (hok : ∀ a scene', condition (.ok a) scene' → Ensures view scene' (next a).run condition')
    (herror : ∀ d scene', condition (.error d) scene' → condition' (.error d) scene') :
    Ensures view scene (action >>= next).run condition' := by
  rw [ExceptT.run_bind]
  refine h.bind fun result scene' hresult => ?_
  cases result with
  | ok a => exact hok a scene' hresult
  | error d => exact of_pure (herror d scene' hresult)

theorem bind_lift {next : α → ExceptT Diagnostic (StateM σ) β}
    {condition' : Except Diagnostic β → Scene → Prop}
    (h : Ensures view scene action condition)
    (hnext : ∀ a scene', condition a scene' → Ensures view scene' (next a).run condition') :
    Ensures view scene (ExceptT.lift action >>= next).run condition' := by
  rw [ExceptT.run_bind_lift]
  exact h.bind hnext

theorem lift {condition' : Except Diagnostic α → Scene → Prop}
    (h : Ensures view scene action condition)
    (hok : ∀ a scene', condition a scene' → condition' (.ok a) scene') :
    Ensures view scene (ExceptT.lift action : ExceptT Diagnostic (StateM σ) α).run condition' := by
  intro s hs
  exact hok _ _ (h s hs)

theorem bind_if {asked : Bool} {action : StateM σ Unit}
    {next : Unit → ExceptT Diagnostic (StateM σ) β} (middle : Scene)
    {condition' : Except Diagnostic β → Scene → Prop}
    (htaken : asked = true → Ensures view scene action fun _ scene' => scene' = middle)
    (hskipped : asked = false → scene = middle)
    (hnext : Ensures view middle (next ()).run condition') :
    Ensures view scene (if asked = true then ExceptT.lift action >>= next else next ()).run
      condition' := by
  cases asked with
  | false =>
    rw [hskipped rfl]
    exact hnext
  | true => exact (htaken rfl).bind_lift fun _ _ heq => heq ▸ hnext

theorem bind_settled {result : Except Diagnostic α}
    {next : α → ExceptT Diagnostic (StateM σ) β}
    {condition' : Except Diagnostic β → Scene → Prop}
    (hok : ∀ a, result = .ok a → Ensures view scene (next a).run condition')
    (herror : ∀ d, result = .error d → condition' (.error d) scene) :
    Ensures view scene (settled result >>= next).run condition' := by
  cases result with
  | ok a => exact hok a rfl
  | error d => exact of_pure (herror d rfl)

end Ensures

namespace Scene

def writing (scene : Scene) (bytes : List UInt8) : Scene :=
  { scene with output := scene.output ++ bytes }

def telling (scene : Scene) (lines : List String) : Scene :=
  { scene with notices := lines.foldl (fun text line => text ++ (line ++ "\n")) scene.notices }

theorem writing_nil (scene : Scene) : scene.writing [] = scene := by
  rw [writing, List.append_nil]

theorem writing_append (scene : Scene) (bytes others : List UInt8) :
    scene.writing (bytes ++ others) = (scene.writing bytes).writing others := by
  rw [writing, ← List.append_assoc]
  rfl

theorem telling_append (scene : Scene) (lines others : List String) :
    scene.telling (lines ++ others) = (scene.telling lines).telling others := by
  rw [telling, List.foldl_append]
  rfl

theorem bytes_notices_telling (scene : Scene) (lines : List String) :
    Text.bytes (scene.telling lines).notices =
      Text.bytes scene.notices ++ lines.flatMap fun line => Text.bytes (line ++ "\n") := by
  induction lines generalizing scene with
  | nil => exact (List.append_nil _).symm
  | cons line lines ih =>
    have htelling : scene.telling (line :: lines) = (scene.telling [line]).telling lines :=
      scene.telling_append [line] lines
    have hline : (scene.telling [line]).notices = scene.notices ++ (line ++ "\n") := rfl
    rw [htelling, ih, hline, Text.bytes_append, List.flatMap_cons, List.append_assoc]

end Scene

/-! ## Hosts -/

/-- The host shows a scene in each of its states: the variables that it knows are those of
the scene, each channel takes all that is written to it, and the clock may tell any time. -/
structure Shows (host : Host (StateM σ)) (view : σ → Scene) : Prop where
  environment : ∀ scene name, Ensures view scene (host.environment name) fun value scene' =>
    value = scene.environment name ∧ scene' = scene
  clock : ∀ scene, Ensures view scene host.clock fun _ scene' => scene' = scene
  write : ∀ scene text, Ensures view scene (host.write text) fun reason scene' =>
    reason = none ∧ scene' = scene.writing (Text.bytes text)
  notify : ∀ scene text, Ensures view scene (host.notify text) fun _ scene' =>
    scene' = { scene with notices := scene.notices ++ text }

theorem World.shows_host : Shows World.host World.toScene where
  environment _ _ := fun _ h => h ▸ ⟨rfl, rfl⟩
  clock _ := fun _ h => h
  write _ _ := fun _ h => h ▸ ⟨rfl, rfl⟩
  notify _ _ := fun _ h => h ▸ rfl

def timed (settings : Settings) (completed : Bool) (label : String) (span : Nat) : List String :=
  if settings.timings && completed then [label ++ elapsedText span] else []

theorem timed_false (settings : Settings) (label : String) (span : Nat) :
    timed settings false label span = [] := by
  rw [timed, Bool.and_false]
  rfl

namespace Shows

variable {host : Host (StateM σ)}

theorem ensures_notice (h : Shows host view) (line : String) :
    Ensures view scene (notice host line) fun _ scene' => scene' = scene.telling [line] :=
  h.notify scene (line ++ "\n")

theorem ensures_notices (h : Shows host view) {γ : Type} (line : γ → String) (items : List γ) :
    Ensures view scene (items.forM fun item => notice host (line item)) fun _ scene' =>
      scene' = scene.telling (items.map line) := by
  induction items generalizing scene with
  | nil => exact .of_pure rfl
  | cons item items ih =>
    refine (h.ensures_notice (line item)).bind ?_
    rintro _ _ rfl
    exact ih

theorem ensures_timing (h : Shows host view) (settings : Settings) (label : String)
    (since : Nat) :
    Ensures view scene (timing host settings label since) fun _ scene' =>
      ∃ span, scene' = scene.telling (timed settings true label span) := by
  unfold timing
  cases htimings : settings.timings with
  | false => exact .of_pure ⟨0, by rw [timed, htimings]; rfl⟩
  | true =>
    refine (h.clock scene).bind ?_
    rintro now _ rfl
    refine (h.ensures_notice _).mono ?_
    rintro _ _ rfl
    exact ⟨now - since, by rw [timed, htimings]; rfl⟩

end Shows

end Scriptlet.Command
