import AuditTrail.Proofs.Text.Pieces
import AuditTrail.Simulation.Runtime

/-!
# What an open runtime answers

A runtime that asks for no token and fails no action accepts every call. What it answers is settled by
what the URL has after the route: nothing, the live id, or the live id and the name of an action. After
the call with number `n` the state is the template with that number.
-/

namespace AuditTrail.Simulation

open Http (Request Reply Response)

namespace Runtime

/-- Everybody may do everything, and no URL under the route is kept for anything else. -/
structure IsOpen (rt : Runtime) : Prop where
  required : rt.required = []
  failing : rt.failing = []
  auth : ∀ url, rt.authUrl = some url → ¬ rt.root ++ ['/'] <+: url.toList

variable {rt : Runtime} {p : Progress} {r : Request}

theorem IsOpen.authorizes (h : rt.IsOpen) (action : String) : rt.authorizes action r = true := by
  unfold Runtime.authorizes
  rw [h.required]
  rfl

/-- A URL under the route is answered by what stands after it. -/
theorem IsOpen.serve_eq (h : rt.IsOpen) {rest : List Char}
    (hurl : r.url.toList = rt.root ++ '/' :: rest) :
    rt.serve p r = (.ok (rt.respond p r rest).1, (rt.respond p r rest).2) := by
  -- Passwords are exchanged first, but not at a URL under the route.
  have hauth : rt.authUrl ≠ some r.url := fun heq =>
    h.auth r.url heq ⟨rest, by rw [hurl]; simp⟩
  have hrest : Text.dropStart? (rt.root ++ ['/']) r.url.toList = some rest := by
    rw [Text.dropStart?_eq_some, hurl]
    simp
  rw [serve, if_neg hauth, hrest]

theorem IsOpen.serve_construction (h : rt.IsOpen) (hmethod : r.method = .post)
    (hurl : r.url.toList = rt.root ++ ['/']) :
    rt.serve p r = (.ok ⟨200, (Json.ofMembers [("@id", .string rt.liveId)]).wire⟩, ⟨true, 1⟩) := by
  rw [h.serve_eq hurl, respond, hmethod]
  simp [construct, h.authorizes]

theorem IsOpen.serve_call (h : rt.IsOpen) {action : List Char} (hmethod : r.method = .post)
    (hurl : r.url.toList = rt.root ++ '/' :: (rt.liveId.toList ++ '/' :: action))
    (haction : action ≠ []) (hconstructed : p.constructed = true) :
    rt.serve p r = (.ok ⟨200, "\x7b\x7d"⟩, { p with calls := p.calls + 1 }) := by
  have hdrop : Text.dropStart? (rt.liveId.toList ++ ['/']) (rt.liveId.toList ++ '/' :: action)
      = some action := by
    rw [Text.dropStart?_eq_some]
    simp
  rw [h.serve_eq hurl, respond, hmethod]
  simp [hdrop, hconstructed, haction, invoke, h.authorizes, h.failing]

theorem stateAfter?_eq {calls : Nat} {template : Json} (h : rt.states[calls]? = some template) :
    rt.stateAfter? (calls + 1) = some (Template.instantiate rt.liveId template) := by
  obtain ⟨hlt, _⟩ := List.getElem?_eq_some_iff.mp h
  have hindex : min (calls + 1 - 1) (rt.states.length - 1) = calls := by omega
  rw [stateAfter?, if_neg (Nat.succ_ne_zero calls), hindex, h]
  rfl

theorem IsOpen.serve_state (h : rt.IsOpen) {calls : Nat} {template : Json} (hmethod : r.method = .get)
    (hurl : r.url.toList = rt.root ++ '/' :: (rt.liveId.toList ++ ['/']))
    (hcalls : p.calls = calls + 1) (htemplate : rt.states[calls]? = some template) :
    rt.serve p r = (.ok ⟨200, (Template.instantiate rt.liveId template).wire⟩, p) := by
  rw [h.serve_eq hurl, respond, hmethod]
  simp [hcalls, stateAfter?_eq htemplate]

end Runtime

end AuditTrail.Simulation
