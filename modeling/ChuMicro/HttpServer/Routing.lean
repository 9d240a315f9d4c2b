import ChuMicro.HttpServer.Server
import ChuMicro.Lib.Dict
import Mathlib.Data.Char
import Mathlib.Data.List.Lex

/-!
# Routes of the HTTP server

`route`, `_register`, `_dispatch_request` and `_allowed_methods_for` of
`chumicro_http_server/server.py`. A route is either explicit, and stands in a dictionary under its
method and path, or it ends in a segment `<name>`, and stands in a list that is searched for its
method and the path before that segment. A later registration takes the place of an earlier one in
either.

A handler is given its request and the parameters of its path. `str.upper` is a parameter, as
`lower` is elsewhere.

## Main definitions

* `HttpServer.Routes` — the two tables, with `register` and `route`.
* `HttpServer.Routes.dispatch` — whom a request goes to, and `dispatchRequest`, what is answered.
* `HttpServer.lastExplicit`, `HttpServer.lastPattern` — what the registrations say.

## Main results

* `HttpServer.dispatch_routes` — a request goes where the registrations say, whatever their order
  and however explicit routes and patterns are mixed.
-/

namespace ChuMicro.HttpServer

open Http

/-! ## The two tables -/

/-- `_split_pattern_path`. -/
def splitPatternPath (path : Str) : Str × Str :=
  if '/' ∈ path then
    let last := (path.reverse.takeWhile (· ≠ '/')).reverse
    (path.take (path.length - last.length), last)
  else ([], [])

/-- The last segment of a path is a `<name>`. -/
def isPattern (path : Str) : Bool :=
  let last := (splitPatternPath path).2
  last.length ≥ 2 && last.head? = some '<' && last.getLast? = some '>'

/-- The name in the last segment. -/
def paramName (path : Str) : Str := (splitPatternPath path).2.tail.dropLast

/-- An entry of `_pattern_routes`. -/
structure PatternRoute (H : Type) where
  method : Str
  pathPrefix : Str
  paramName : Str
  handler : H

/-- `_explicit_routes` and `_pattern_routes`. -/
structure Routes (H : Type) where
  explicitRoutes : List ((Str × Str) × H) := []
  patternRoutes : List (PatternRoute H) := []

section Tables

variable {H : Type}

/-- The loop of `_register` over the patterns: the first entry with the same method and prefix is
replaced, or the entry comes last. -/
def putPattern (entry : PatternRoute H) : List (PatternRoute H) → List (PatternRoute H)
  | [] => [entry]
  | existing :: rest =>
    if existing.method = entry.method ∧ existing.pathPrefix = entry.pathPrefix then entry :: rest
    else existing :: putPattern entry rest

/-- `_register`. -/
def Routes.register (routes : Routes H) (method path : Str) (handler : H) : Routes H :=
  if isPattern path then
    let entry : PatternRoute H := ⟨method, (splitPatternPath path).1, paramName path, handler⟩
    { routes with patternRoutes := putPattern entry routes.patternRoutes }
  else { routes with explicitRoutes := Dict.set (method, path) handler routes.explicitRoutes }

/-- A call of `route` whose decorator is given a handler. -/
structure RouteCall (H : Type) where
  path : Str
  methods : List Str := ["GET".toList]
  handler : H

/-- `route`. -/
def Routes.route (upper : Str → Str) (routes : Routes H) (call : RouteCall H) : Routes H :=
  call.methods.foldl (fun routes method => routes.register (upper method) call.path call.handler) routes

/-- The routes of a server after some calls of `route`. -/
def routesOf (upper : Str → Str) (calls : List (RouteCall H)) : Routes H :=
  calls.foldl (Routes.route upper) {}

/-! ## Dispatch -/

/-- Whom a request goes to: a handler with the parameters of the path, or a response of the server.
-/
inductive Decision (H : Type) where
  | call (handler : H) (pathParams : List (Str × Str))
  | respond (response : Response)

/-- `_build_method_not_allowed_response`. -/
def buildMethodNotAllowedResponse (allowedMethods : List Str) : Response where
  statusCode := 405
  reason := reasonOf 405
  headers := some [("Content-Type".toList, "text/plain; charset=utf-8".toList),
    ("Allow".toList, List.intercalate ", ".toList allowedMethods)]
  body := "method not allowed".toList.map asciiByte

/-- `allowed.add(method)`. -/
def addMethod (allowed : List Str) (method : Str) : List Str :=
  if method ∈ allowed then allowed else allowed ++ [method]

/-- `_allowed_methods_for`. -/
def Routes.allowedMethodsFor (routes : Routes H) (path : Str) : List Str :=
  let allowed := routes.explicitRoutes.foldl (fun allowed entry =>
    if entry.1.2 = path then addMethod allowed entry.1.1 else allowed) []
  let (pathPrefix, paramValue) := splitPatternPath path
  if paramValue = [] then allowed
  else routes.patternRoutes.foldl (fun allowed entry =>
    if entry.pathPrefix = pathPrefix then addMethod allowed entry.method else allowed) allowed

/-- The loop of `_dispatch_request` over the patterns. -/
def Routes.findPattern (routes : Routes H) (method pathPrefix : Str) : Option (PatternRoute H) :=
  routes.patternRoutes.find? fun entry => entry.method = method ∧ entry.pathPrefix = pathPrefix

/-- `_dispatch_request`, up to the call of the handler. -/
def Routes.dispatch (routes : Routes H) (fallback : Option H) (method path : Str) :
    Except PyExn (Decision H) :=
  match Dict.get? (method, path) routes.explicitRoutes with
  | some handler => .ok (.call handler [])
  | none =>
    let (pathPrefix, paramValue) := splitPatternPath path
    match if paramValue = [] then none else routes.findPattern method pathPrefix with
    | some entry => .ok (.call entry.handler [(entry.paramName, paramValue)])
    | none =>
      let allowed := routes.allowedMethodsFor path
      if allowed ≠ [] then
        .ok (.respond (buildMethodNotAllowedResponse (allowed.mergeSort fun a b => decide (a ≤ b))))
      else
        match fallback with
        | some handler => .ok (.call handler [])
        | none => Decision.respond <$> buildErrorResponse 404 (pyStr "not found")

end Tables

/-- A handler, given its request and the parameters of the path. -/
abbrev RouteHandler := Request → List (Str × Str) → Handled

/-- `_dispatch_request`, the handler of the connections of a server. -/
def Routes.dispatchRequest (routes : Routes RouteHandler) (fallback : Option RouteHandler)
    (request : Request) : Handled :=
  match routes.dispatch fallback request.method request.path with
  | .ok (.call handler pathParams) => handler request pathParams
  | .ok (.respond response) => { answer := .response response }
  | .error _ => { answer := .raised none }

/-! ## What the registrations say -/

section Registrations

variable {H : Type}

/-- One method of one call of `route`. -/
structure Registration (H : Type) where
  method : Str
  path : Str
  handler : H

/-- The registrations of some calls, in order. -/
def registrations (upper : Str → Str) (calls : List (RouteCall H)) : List (Registration H) :=
  calls.flatMap fun call => call.methods.map fun method => ⟨upper method, call.path, call.handler⟩

/-- The registration is one of an explicit route for the path. -/
def Registration.Explicit (r : Registration H) (path : Str) : Prop :=
  isPattern r.path = false ∧ r.path = path

/-- The registration is one of a pattern with the prefix. -/
def Registration.Pattern (r : Registration H) (pathPrefix : Str) : Prop :=
  isPattern r.path = true ∧ (splitPatternPath r.path).1 = pathPrefix

instance (r : Registration H) (path : Str) : Decidable (r.Explicit path) :=
  inferInstanceAs (Decidable (_ ∧ _))

instance (r : Registration H) (pathPrefix : Str) : Decidable (r.Pattern pathPrefix) :=
  inferInstanceAs (Decidable (_ ∧ _))

/-- The path is matched by the registration: it is its path, or it has its prefix and a last segment
that is not empty. -/
def Registration.Matches (r : Registration H) (path : Str) : Prop :=
  r.Explicit path ∨ ((splitPatternPath path).2 ≠ [] ∧ r.Pattern (splitPatternPath path).1)

instance (r : Registration H) (path : Str) : Decidable (r.Matches path) :=
  inferInstanceAs (Decidable (_ ∨ _))

/-- The last handler that was registered for exactly this method and path. -/
def lastExplicit (rs : List (Registration H)) (method path : Str) : Option H :=
  (rs.reverse.find? fun r => r.method = method ∧ r.Explicit path).map Registration.handler

/-- The last registration of a pattern with this method and prefix. -/
def lastPattern (rs : List (Registration H)) (method pathPrefix : Str) : Option (Registration H) :=
  rs.reverse.find? fun r => r.method = method ∧ r.Pattern pathPrefix

/-- **Where a request belongs, as the registrations have it**: to the last handler for its method
and path; else to the last handler of a pattern, with the last segment of the path bound, if there
is one; else it is answered with the methods under which the path is matched, in order, if there are
any; else it belongs to the fallback, or is not found. -/
def Belongs (rs : List (Registration H)) (fallback : Option H) (method path : Str)
    (decision : Decision H) : Prop :=
  match lastExplicit rs method path with
  | some handler => decision = .call handler []
  | none =>
    match if (splitPatternPath path).2 = [] then none
      else lastPattern rs method (splitPatternPath path).1 with
    | some r => decision = .call r.handler [(paramName r.path, (splitPatternPath path).2)]
    | none =>
      if ∃ r ∈ rs, r.Matches path then
        ∃ allowed : List Str, allowed.Nodup ∧ allowed.Pairwise (· ≤ ·) ∧
          (∀ m, m ∈ allowed ↔ ∃ r ∈ rs, r.method = m ∧ r.Matches path) ∧
          decision = .respond (buildMethodNotAllowedResponse allowed)
      else
        match fallback with
        | some handler => decision = .call handler []
        | none => ∃ response, buildErrorResponse 404 (pyStr "not found") = .ok response ∧
            decision = .respond response

/-! ## The tables hold what was registered -/

variable {upper : Str → Str} {routes : Routes H} {rs : List (Registration H)} {entry : PatternRoute H}
  {patterns : List (PatternRoute H)} {method path pathPrefix : Str}

/-- Putting a pattern changes what is found for its method and prefix, and nothing else. -/
lemma find?_putPattern (entry : PatternRoute H) (patterns : List (PatternRoute H))
    (method pathPrefix : Str) :
    (putPattern entry patterns).find? (fun e => e.method = method ∧ e.pathPrefix = pathPrefix) =
      if entry.method = method ∧ entry.pathPrefix = pathPrefix then some entry
      else patterns.find? fun e => e.method = method ∧ e.pathPrefix = pathPrefix := by
  induction patterns with
  | nil =>
    by_cases hkey : entry.method = method ∧ entry.pathPrefix = pathPrefix
    · simp [putPattern, hkey]
    · simp [putPattern, hkey]
  | cons existing rest ih =>
    unfold putPattern
    by_cases hsame : existing.method = entry.method ∧ existing.pathPrefix = entry.pathPrefix
    · rw [if_pos hsame]
      by_cases hkey : entry.method = method ∧ entry.pathPrefix = pathPrefix
      · simp [hkey]
      · -- the entry that is replaced has another key, too
        simp [hkey, hsame]
    · rw [if_neg hsame, List.find?_cons, List.find?_cons, ih]
      by_cases hfound : existing.method = method ∧ existing.pathPrefix = pathPrefix
      · have hkey : ¬ (entry.method = method ∧ entry.pathPrefix = pathPrefix) := fun h =>
          hsame ⟨hfound.1.trans h.1.symm, hfound.2.trans h.2.symm⟩
        simp [hfound, hkey]
      · simp [hfound]

/-- The tables hold the last registrations. -/
structure Holds (routes : Routes H) (rs : List (Registration H)) : Prop where
  explicit : ∀ method path, Dict.get? (method, path) routes.explicitRoutes = lastExplicit rs method path
  pattern : ∀ method pathPrefix, routes.findPattern method pathPrefix =
    (lastPattern rs method pathPrefix).map fun r =>
      ⟨r.method, pathPrefix, paramName r.path, r.handler⟩

/-- **A registration takes its place in one of the tables.** -/
lemma Holds.register (h : Holds routes rs) (r : Registration H) :
    Holds (routes.register r.method r.path r.handler) (rs ++ [r]) := by
  have hexplicit : ∀ method path, lastExplicit (rs ++ [r]) method path =
      if r.method = method ∧ r.Explicit path then some r.handler else lastExplicit rs method path := by
    intro method path
    unfold lastExplicit
    rw [List.reverse_append, List.reverse_singleton, List.singleton_append, List.find?_cons]
    by_cases hr : r.method = method ∧ r.Explicit path
    · simp [hr]
    · simp [hr]
  have hpattern : ∀ method pathPrefix, lastPattern (rs ++ [r]) method pathPrefix =
      if r.method = method ∧ r.Pattern pathPrefix then some r else lastPattern rs method pathPrefix := by
    intro method pathPrefix
    unfold lastPattern
    rw [List.reverse_append, List.reverse_singleton, List.singleton_append, List.find?_cons]
    by_cases hr : r.method = method ∧ r.Pattern pathPrefix
    · simp [hr]
    · simp [hr]
  unfold Routes.register
  by_cases hkind : isPattern r.path = true
  · rw [if_pos hkind]
    constructor
    · intro method path
      rw [hexplicit, if_neg fun hr => Bool.false_ne_true (hr.2.1.symm.trans hkind)]
      exact h.explicit method path
    · intro method pathPrefix
      have hfind := find?_putPattern ⟨r.method, (splitPatternPath r.path).1, paramName r.path, r.handler⟩
        routes.patternRoutes method pathPrefix
      unfold Routes.findPattern
      dsimp only at hfind ⊢
      rw [hfind, hpattern]
      by_cases hr : r.method = method ∧ (splitPatternPath r.path).1 = pathPrefix
      · rw [if_pos hr, if_pos ⟨hr.1, hkind, hr.2⟩, ← hr.2]
        rfl
      · rw [if_neg hr, if_neg fun hp => hr ⟨hp.1, hp.2.2⟩]
        exact h.pattern method pathPrefix
  · rw [if_neg hkind]
    have hkind' : isPattern r.path = false := Bool.not_eq_true _ ▸ hkind
    constructor
    · intro method path
      rw [hexplicit, Dict.get?_set]
      by_cases hr : r.method = method ∧ r.path = path
      · rw [if_pos (Prod.ext hr.1 hr.2), if_pos ⟨hr.1, hkind', hr.2⟩]
      · rw [if_neg fun heq => hr (Prod.mk.inj heq), if_neg fun he => hr ⟨he.1, he.2.2⟩]
        exact h.explicit method path
    · intro method pathPrefix
      rw [hpattern, if_neg fun hp => hkind hp.2.1]
      exact h.pattern method pathPrefix

/-- **The tables after some calls of `route`** hold their registrations.

**Proof sketch.** Induction on the calls, and in each on its methods. -/
lemma holds_routesOf (upper : Str → Str) (calls : List (RouteCall H)) :
    Holds (routesOf upper calls) (registrations upper calls) := by
  have hmethods : ∀ (call : RouteCall H) (methods : List Str) (routes : Routes H)
      (rs : List (Registration H)),
      Holds routes rs →
        Holds (methods.foldl (fun routes method =>
          routes.register (upper method) call.path call.handler) routes)
          (rs ++ methods.map fun method => ⟨upper method, call.path, call.handler⟩) := by
    intro call methods
    induction methods with
    | nil =>
      intro routes rs h
      rw [List.map_nil, List.append_nil]
      exact h
    | cons method methods ih =>
      intro routes rs h
      have hnext := ih _ _ (h.register ⟨upper method, call.path, call.handler⟩)
      rw [List.append_assoc] at hnext
      exact hnext
  have hcalls : ∀ (calls : List (RouteCall H)) (routes : Routes H) (rs : List (Registration H)),
      Holds routes rs →
        Holds (calls.foldl (Routes.route upper) routes) (rs ++ registrations upper calls) := by
    intro calls
    induction calls with
    | nil =>
      intro routes rs h
      rw [registrations, List.flatMap_nil, List.append_nil]
      exact h
    | cons call calls ih =>
      intro routes rs h
      have hnext := ih _ _ (hmethods call call.methods routes rs h)
      rw [List.append_assoc] at hnext
      exact hnext
  exact hcalls calls {} [] ⟨fun _ _ => rfl, fun _ _ => rfl⟩

/-! ## The methods of a path -/

/-- A loop that adds the methods of some entries. -/
lemma foldl_addMethod {α : Type} (f : α → Str) (keep : α → Prop) [DecidablePred keep] (entries : List α)
    {allowed : List Str} (h : allowed.Nodup) :
    (entries.foldl (fun allowed e => if keep e then addMethod allowed (f e) else allowed) allowed).Nodup ∧
      ∀ m, m ∈ entries.foldl (fun allowed e =>
        if keep e then addMethod allowed (f e) else allowed) allowed ↔
        m ∈ allowed ∨ ∃ e ∈ entries, keep e ∧ f e = m := by
  induction entries generalizing allowed with
  | nil => exact ⟨h, fun m => by simp⟩
  | cons e entries ih =>
    rw [List.foldl_cons]
    by_cases hkeep : keep e
    · rw [if_pos hkeep]
      have hadd : (addMethod allowed (f e)).Nodup ∧
          ∀ m, m ∈ addMethod allowed (f e) ↔ m ∈ allowed ∨ f e = m := by
        unfold addMethod
        by_cases hmem : f e ∈ allowed
        · rw [if_pos hmem]
          refine ⟨h, fun m => ⟨.inl, ?_⟩⟩
          rintro (hm | rfl)
          · exact hm
          · exact hmem
        · rw [if_neg hmem]
          refine ⟨List.nodup_append.mpr ⟨h, List.pairwise_singleton _ _, ?_⟩, fun m => ?_⟩
          · intro a ha b hb hab
            rw [List.mem_singleton] at hb
            exact hmem (hb ▸ hab ▸ ha)
          · rw [List.mem_append, List.mem_singleton]
            exact or_congr_right eq_comm
      obtain ⟨hnodup, hmem⟩ := ih hadd.1
      refine ⟨hnodup, fun m => ?_⟩
      rw [hmem m, hadd.2 m]
      simp only [List.mem_cons, exists_eq_or_imp, hkeep, true_and, or_assoc]
    · rw [if_neg hkeep]
      obtain ⟨hnodup, hmem⟩ := ih h
      refine ⟨hnodup, fun m => ?_⟩
      rw [hmem m]
      simp only [List.mem_cons, exists_eq_or_imp, hkeep, false_and, false_or]

/-- An explicit route is found where one was registered. -/
lemma lastExplicit_ne_none : lastExplicit rs method path ≠ none ↔
    ∃ r ∈ rs, r.method = method ∧ r.Explicit path := by
  unfold lastExplicit
  rw [ne_eq, Option.map_eq_none_iff, List.find?_eq_none]
  simp only [List.mem_reverse, decide_eq_true_eq, not_forall, not_not, exists_prop]

/-- A pattern is found where one was registered. -/
lemma lastPattern_ne_none : lastPattern rs method pathPrefix ≠ none ↔
    ∃ r ∈ rs, r.method = method ∧ r.Pattern pathPrefix := by
  unfold lastPattern
  rw [ne_eq, List.find?_eq_none]
  simp only [List.mem_reverse, decide_eq_true_eq, not_forall, not_not, exists_prop]

/-- The key of an explicit route is in its table where it was registered. -/
lemma Holds.mem_explicit (h : Holds routes rs) :
    (∃ e ∈ routes.explicitRoutes, e.1.2 = path ∧ e.1.1 = method) ↔
      ∃ r ∈ rs, r.method = method ∧ r.Explicit path := by
  rw [← lastExplicit_ne_none, ← h.explicit, ne_eq, Dict.get?_eq_none_iff, not_not, List.mem_map]
  constructor
  · rintro ⟨e, he, rfl, rfl⟩
    exact ⟨e, he, rfl⟩
  · rintro ⟨e, he, hkey⟩
    exact ⟨e, he, congrArg Prod.snd hkey, congrArg Prod.fst hkey⟩

/-- The key of a pattern is in its table where it was registered. -/
lemma Holds.mem_pattern (h : Holds routes rs) :
    (∃ e ∈ routes.patternRoutes, e.pathPrefix = pathPrefix ∧ e.method = method) ↔
      ∃ r ∈ rs, r.method = method ∧ r.Pattern pathPrefix := by
  have hfind : (∃ e ∈ routes.patternRoutes, e.pathPrefix = pathPrefix ∧ e.method = method) ↔
      routes.findPattern method pathPrefix ≠ none := by
    unfold Routes.findPattern
    rw [ne_eq, List.find?_eq_none]
    simp only [decide_eq_true_eq, not_forall, not_not, exists_prop, and_comm]
  rw [hfind, h.pattern, ne_eq, Option.map_eq_none_iff, ← lastPattern_ne_none]

/-- **The allowed methods of a path are those under which it is matched.** -/
lemma Holds.allowed (h : Holds routes rs) (path : Str) :
    (routes.allowedMethodsFor path).Nodup ∧
      ∀ m, m ∈ routes.allowedMethodsFor path ↔ ∃ r ∈ rs, r.method = m ∧ r.Matches path := by
  obtain ⟨hnodup, hmem⟩ := foldl_addMethod (fun e : (Str × Str) × H => e.1.1) (fun e => e.1.2 = path)
    routes.explicitRoutes List.nodup_nil
  obtain ⟨hnodup', hmem'⟩ := foldl_addMethod PatternRoute.method
    (fun e : PatternRoute H => e.pathPrefix = (splitPatternPath path).1) routes.patternRoutes hnodup
  have hsplit : ∀ m, (∃ r ∈ rs, r.method = m ∧ r.Matches path) ↔
      (∃ r ∈ rs, r.method = m ∧ r.Explicit path) ∨ ((splitPatternPath path).2 ≠ [] ∧
        ∃ r ∈ rs, r.method = m ∧ r.Pattern (splitPatternPath path).1) := by
    intro m
    constructor
    · rintro ⟨r, hr, hm, hexplicit | ⟨hne, hpattern⟩⟩
      · exact .inl ⟨r, hr, hm, hexplicit⟩
      · exact .inr ⟨hne, r, hr, hm, hpattern⟩
    · rintro (⟨r, hr, hm, hexplicit⟩ | ⟨hne, r, hr, hm, hpattern⟩)
      · exact ⟨r, hr, hm, .inl hexplicit⟩
      · exact ⟨r, hr, hm, .inr ⟨hne, hpattern⟩⟩
  unfold Routes.allowedMethodsFor
  dsimp only
  by_cases hempty : (splitPatternPath path).2 = []
  · rw [if_pos hempty]
    refine ⟨hnodup, fun m => ?_⟩
    rw [hmem m, hsplit m, ← h.mem_explicit]
    simp [hempty]
  · rw [if_neg hempty]
    refine ⟨hnodup', fun m => ?_⟩
    rw [hmem' m, hmem m, hsplit m, ← h.mem_explicit, ← h.mem_pattern]
    simp [hempty]

/-- The text order is one in which `sorted` sorts. -/
lemma pairwise_sorted (allowed : List Str) :
    (allowed.mergeSort fun a b => decide (a ≤ b)).Pairwise (· ≤ ·) := by
  have htrans : ∀ a b c : Str, decide (a ≤ b) = true → decide (b ≤ c) = true →
      decide (a ≤ c) = true := fun a b c hab hbc =>
    decide_eq_true (le_trans (of_decide_eq_true hab) (of_decide_eq_true hbc))
  have htotal : ∀ a b : Str, (decide (a ≤ b) || decide (b ≤ a)) = true := by
    intro a b
    rw [Bool.or_eq_true]
    exact (le_total a b).imp decide_eq_true decide_eq_true
  exact (List.pairwise_mergeSort htrans htotal allowed).imp of_decide_eq_true

/-- **A request goes where the registrations say**, for any calls of `route` in any order, any
fallback and any request.

**Proof sketch.** Both tables hold the last registration for each of their keys, and the methods
that are allowed for a path are the first halves of these keys. -/
theorem dispatch_routes (upper : Str → Str) (calls : List (RouteCall H)) (fallback : Option H)
    (method path : Str) :
    ∃ decision, (routesOf upper calls).dispatch fallback method path = .ok decision ∧
      Belongs (registrations upper calls) fallback method path decision := by
  have h := holds_routesOf upper calls
  obtain ⟨hnodup, hallowed⟩ := h.allowed path
  have hpattern : (if (splitPatternPath path).2 = [] then none
      else (routesOf upper calls).findPattern method (splitPatternPath path).1) =
      (if (splitPatternPath path).2 = [] then none
        else lastPattern (registrations upper calls) method (splitPatternPath path).1).map fun r =>
          ⟨r.method, (splitPatternPath path).1, paramName r.path, r.handler⟩ := by
    rw [h.pattern]
    split_ifs
    · rfl
    · rfl
  unfold Routes.dispatch Belongs
  dsimp only
  rw [h.explicit, hpattern]
  cases hexplicit : lastExplicit (registrations upper calls) method path with
  | some handler => exact ⟨_, rfl, rfl⟩
  | none =>
    dsimp only
    cases hfound : (if (splitPatternPath path).2 = [] then none
        else lastPattern (registrations upper calls) method (splitPatternPath path).1) with
    | some r => exact ⟨_, rfl, rfl⟩
    | none =>
      dsimp only [Option.map_none]
      by_cases hany : ∃ r ∈ registrations upper calls, r.Matches path
      · -- the set is not empty, and `sorted` only changes the order
        have hne : (routesOf upper calls).allowedMethodsFor path ≠ [] := by
          obtain ⟨r, hr, hmatch⟩ := hany
          exact List.ne_nil_of_mem ((hallowed r.method).mpr ⟨r, hr, rfl, hmatch⟩)
        rw [if_pos hne]
        refine ⟨_, rfl, ?_⟩
        rw [if_pos hany]
        refine ⟨_, ?_, pairwise_sorted _, fun m => ?_, rfl⟩
        · exact (List.mergeSort_perm _ _).nodup_iff.mpr hnodup
        · rw [List.mem_mergeSort]
          exact hallowed m
      · have hnil : (routesOf upper calls).allowedMethodsFor path = [] := by
          refine List.eq_nil_iff_forall_not_mem.mpr fun m hm => ?_
          obtain ⟨r, hr, -, hmatch⟩ := (hallowed m).mp hm
          exact hany ⟨r, hr, hmatch⟩
        rw [if_neg (not_not.mpr hnil)]
        cases fallback with
        | some handler =>
          refine ⟨_, rfl, ?_⟩
          rw [if_neg hany]
        | none =>
          refine ⟨_, rfl, ?_⟩
          rw [if_neg hany]
          exact ⟨_, rfl, rfl⟩

end Registrations

end ChuMicro.HttpServer
