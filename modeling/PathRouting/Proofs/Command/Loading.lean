import PathRouting.Command.Run
import PathRouting.Proofs.Config.Precedence
import PathRouting.Proofs.Json.RoundTrip
import PathRouting.Proofs.Router.Table

/-!
# Commands that load a table

Every command but the one that inspects a single pattern loads a table of routes. Where the table
is reported with a fault, the command puts it out as its error and ends with exit code one.
-/
namespace PathRouting.Command

open Mapping Output Router

def Action.loads : Action → Bool
  | .inspect .. => false
  | _ => true

/-- What is logged until a configured table has been registered or refused. -/
def preamble [CharacterNames] (g : Globals) (c : RouterSetup) (events : List Event) : String :=
  log g.verbose events ++
    log (showsEvents g c) ((Router.empty .standard c.cache).addAllListedEvents 0 c.routes)

variable {v : FileView Id} {environment : List (String × String)} {words : List String}
  {g : Globals} {name : Name} {action : Action} {settings : Mapping Value} {events : List Event}
  {c : RouterSetup} {e : Failure}

theorem Outcome.after_after (o : Outcome) (first second : String) :
    (o.after second).after first = o.after (first ++ second) := by
  simp [Outcome.after, String.append_assoc]

section

variable [CharacterNames]

theorem withSettings_refused (width : Nat) (hc : RouterSetup.ofSettings settings = .ok c)
    (hr : c.router .standard = .error e) : withSettings g width action (.ok settings, events) =
      (ofFailure e).map fun o => o.after (preamble g c events) := by
  have hconfig : withConfig g width action c = (ofFailure e).map fun o =>
      o.after (log (showsEvents g c)
        ((Router.empty .standard c.cache).addAllListedEvents 0 c.routes)) := by
    simp only [withConfig, hr]
    cases ofFailure e <;> rfl
  simp only [withSettings, Except.bind, hc, hconfig]
  cases ofFailure e with
  | error e => rfl
  | ok o => exact congrArg Except.ok (o.after_after _ _)

theorem run_loads [Config.YamlReader] [LineReader]
    (hline : LineReader.readLine words = .run g name action) (hloads : action.loads = true) :
    run v environment words = withSettings g (terminalWidth environment) action
      (Config.run v (sources g environment)) := by
  rw [run, hline]
  cases action with
  | inspect pattern conditions defaults => cases hloads
  | _ => rfl

theorem ofFailure_escapes {definition : Value} (h : Escapes definition e) :
    ofFailure e = .error e := by
  cases h with
  | name _ _ => rfl
  | condition _ _ _ hx =>
    cases hx with
    | intro _ _ _ => rfl

end

/-! ## Tables in a variable -/

theorem run_variable [Config.YamlReader] {text : String} {value : Value}
    (h : Config.valueOfText text = .ok value) (v : FileView Id) :
    ∃ events, Config.run v (sources ⟨[], none, false, false⟩ [("ROUTEFORGE_ROUTES", text)]) =
      (.ok [(.str "routes", value)], events) := by
  have hname : Config.Leads Config.defaultStart "ROUTEFORGE_ROUTES" ["routes"] :=
    Config.leads_iff.mpr (by decide +kernel)
  have hvariable : Config.VariableBrings Config.defaultStart ("ROUTEFORGE_ROUTES", text)
      [.assignment ["routes"] value] := .assignment hname h
  have hbrings : (sources ⟨[], none, false, false⟩ [("ROUTEFORGE_ROUTES", text)]).Brings v
      ([] ++ [] ++ ([.assignment ["routes"] value] ++ []) ++ []) :=
    .mk .nil .none (.cons hvariable .nil) (.nothing rfl)
  exact Config.run_of_brings hbrings

def unknownMethod : Value :=
  .mapping (ofTexts id [("method", .str "HEAD"), ("name", .str "a"), ("pattern", .str "/")])

def unknownMethodText : String :=
  "[\x7b\"method\": \"HEAD\", \"name\": \"a\", \"pattern\": \"/\"\x7d]"

theorem valueOfText_unknownMethod :
    Config.valueOfText unknownMethodText = .ok (.list [unknownMethod]) := by
  have htext : (Json.arr [.obj [("method", .str "HEAD"), ("name", .str "a"),
      ("pattern", .str "/")]]).text .oneLine = unknownMethodText := by decide +kernel
  have hread : Json.read unknownMethodText = .ok (.arr [.obj [("method", .str "HEAD"),
      ("name", .str "a"), ("pattern", .str "/")]]) := by
    rw [← htext]
    refine Json.read_text (.arr ?_) .oneLine
    intro x hx
    obtain rfl := List.mem_singleton.mp hx
    exact .obj (by decide) (by simp [Json.Textual.str])
  have hword : Config.truthWord? unknownMethodText = none := by decide +kernel
  have hnumber : Config.number? unknownMethodText = none := by rfl
  have hstart : Config.startsLikeJson unknownMethodText = true := by rfl
  simp only [Config.valueOfText, hword, hnumber, Config.containerOrText, hstart, if_true, hread]
  rfl

/-! ## Tables of whatever values -/

end PathRouting.Command
