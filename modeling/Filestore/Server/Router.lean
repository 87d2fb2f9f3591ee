import Filestore.Server.Config

/-!
# The REST router and its middleware

A layer wraps the routes that a router has when the layer is applied, and no route that is added
later.  The server applies its layers to `/health` first and registers the route handlers after
that, so the routes of the handlers are served without any of the layers.
-/

namespace Filestore.Server

inductive Layer where
  | otelInResponse
  | otelAxum
  | bodyLimit (limit : USize)
  | cors
  deriving DecidableEq

/-- A route with the layers around it, the outermost first. -/
structure Route where
  path : String
  layers : List Layer := []
  deriving DecidableEq

/-- A route that no layer wraps. -/
def Route.bare (path : String) : Route := { path }

abbrev Router := List Route

namespace Router

def route (router : Router) (path : String) : Router := router ++ [.bare path]

/-- Wrap the routes that the router has now. -/
def layer (router : Router) (outer : Layer) : Router :=
  router.map fun route ↦ { route with layers := outer :: route.layers }

end Router

/-- A route handler, as the paths that it adds to the router it is given. -/
abbrev RouteHandler := Router → List String

def registerHandler (router : Router) (handler : RouteHandler) : Router :=
  (handler router).foldl Router.route router

/-- Add health routes to the router. -/
def healthRoutes : RouteHandler := fun _ ↦ ["/api/v1/health", "/api/health"]

/-- The router before any handler is registered. -/
def baseRouter (config : RestServerConfig) : Router :=
  let router := (Router.route [] "/health").layer .otelInResponse |>.layer .otelAxum
    |>.layer (.bodyLimit config.maxBodySize.asBytes.toUSize)
  if config.enableCors then router.layer .cors else router

/-- The router that the REST server serves. -/
def restRouter (config : RestServerConfig) (routeHandlers : List RouteHandler) : Router :=
  routeHandlers.foldl registerHandler (baseRouter config)

/-- Wrapped by the body limit and the OpenTelemetry layers, and by CORS if it is enabled. -/
structure Covered (config : RestServerConfig) (route : Route) : Prop where
  otelInResponse : .otelInResponse ∈ route.layers
  otelAxum : .otelAxum ∈ route.layers
  bodyLimit : .bodyLimit config.maxBodySize.asBytes.toUSize ∈ route.layers
  cors : .cors ∈ route.layers ↔ config.enableCors = true

/-! ## Registration only adds bare routes -/

theorem registerHandler_eq (router : Router) (handler : RouteHandler) :
    registerHandler router handler = router ++ (handler router).map .bare := by
  unfold registerHandler
  generalize handler router = paths
  induction paths generalizing router with
  | nil => simp
  | cons path paths ih => simp [Router.route, ih]

/-- Whatever the handlers do, what they add to the router carries no layer. -/
theorem exists_foldl_registerHandler_eq (router : Router) (handlers : List RouteHandler) :
    ∃ paths : List String, handlers.foldl registerHandler router =
      router ++ paths.map .bare := by
  induction handlers generalizing router with
  | nil => exact ⟨[], by simp⟩
  | cons handler handlers ih =>
    obtain ⟨paths, hpaths⟩ := ih (registerHandler router handler)
    refine ⟨handler router ++ paths, ?_⟩
    rw [List.foldl_cons, hpaths, registerHandler_eq]
    simp

/-- The router stays as it was exactly when no handler adds anything to it. -/
theorem foldl_registerHandler_eq_self_iff (router : Router) (handlers : List RouteHandler) :
    handlers.foldl registerHandler router = router ↔
      ∀ handler ∈ handlers, handler router = [] := by
  induction handlers with
  | nil => simp
  | cons handler handlers ih =>
    rw [List.foldl_cons, List.forall_mem_cons]
    by_cases hnone : handler router = []
    · have hsame : registerHandler router handler = router := by simp [registerHandler, hnone]
      rw [hsame, ih]
      simp [hnone]
    · refine iff_of_false (fun hself ↦ hnone ?_) fun hall ↦ hnone hall.1
      obtain ⟨paths, hpaths⟩ :=
        exists_foldl_registerHandler_eq (registerHandler router handler) handlers
      rw [hself, registerHandler_eq, List.append_assoc] at hpaths
      have hadded : handler router = [] ∧ paths = [] := by simpa using hpaths
      exact hadded.1

theorem baseRouter_eq (config : RestServerConfig) :
    baseRouter config = [⟨"/health", (if config.enableCors then [.cors] else []) ++
      [.bodyLimit config.maxBodySize.asBytes.toUSize, .otelAxum, .otelInResponse]⟩] := by
  unfold baseRouter
  split <;> rfl

theorem covered_of_mem_baseRouter {config : RestServerConfig} {route : Route}
    (hmem : route ∈ baseRouter config) : Covered config route := by
  rw [baseRouter_eq, List.mem_singleton] at hmem
  subst hmem
  cases hcors : config.enableCors <;> constructor <;> simp [hcors]

/-- Every served route is wrapped by the middleware exactly when no handler adds a route. -/
theorem restRouter_covered_iff (config : RestServerConfig) (routeHandlers : List RouteHandler) :
    (∀ route ∈ restRouter config routeHandlers, Covered config route) ↔
      ∀ handler ∈ routeHandlers, handler (baseRouter config) = [] := by
  rw [← foldl_registerHandler_eq_self_iff]
  obtain ⟨paths, hpaths⟩ := exists_foldl_registerHandler_eq (baseRouter config) routeHandlers
  rw [restRouter, hpaths]
  constructor
  · intro hcovered
    cases paths with
    | nil => simp
    | cons path paths => simpa [Route.bare] using (hcovered (.bare path) (by simp)).otelAxum
  · intro hself
    rw [hself]
    exact fun route hmem ↦ covered_of_mem_baseRouter hmem

/-- With the application's own handler, the API health routes are served without a body limit. -/
theorem healthRoutes_not_covered :
    .bare "/api/v1/health" ∈ restRouter {} [healthRoutes] ∧
      ¬ ∀ route ∈ restRouter {} [healthRoutes], Covered {} route := by
  have hmem : .bare "/api/v1/health" ∈ restRouter {} [healthRoutes] := by
    simp [restRouter, registerHandler, healthRoutes, Router.route]
  exact ⟨hmem, fun hcovered ↦ by simpa [Route.bare] using (hcovered _ hmem).bodyLimit⟩

end Filestore.Server
