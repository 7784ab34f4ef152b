import RouteAtlas.Module.Registration
import RouteAtlas.Proofs.Catalogue.WellFormed
import RouteAtlas.Proofs.Endpoint.Seeding
import RouteAtlas.Proofs.Syntax.Template
import RouteAtlas.Proofs.Url.Params

/-!
# Parameters of templates

In the URL of a route that is given by a template, a placeholder stands for each substitution. The
placeholder starts with a dollar sign, which a parameter name may hold, and goes on with a brace,
which it may not. So what a literal part contributes to the parameters is what it would contribute
with a dollar sign after it: nothing changes unless the part ends in a colon, or in a colon and a
name.

## Key results

- `namesAfterColons_placeholder`, `namesAfterColons_intercalate`: names in texts with placeholders
  between them
- `Template.namesAfterColons_value_eq_iff`: when placeholders change no name
- `Template.template_params`: the parameters of a route whose URL is a template
-/

namespace RouteAtlas

open Syntax

/-! ## Names before a placeholder -/

namespace Url

/-- The text is a name, or the empty start of one. -/
def IsNameSoFar (name : List Char) : Prop :=
  (∀ c ∈ name.head?, isNameStart c = true) ∧ ∀ c ∈ name, isNamePart c = true

/-- The text ends in a colon and a name that may go on, which may be empty. -/
def EndsInName (cs name : List Char) : Prop := IsNameSoFar name ∧ ∃ front, cs = front ++ ':' :: name

/-- `namesAfterColons` of a text without a colon is empty. -/
private theorem namesAfterColons_eq_nil {cs : List Char} (h : ':' ∉ cs) :
    namesAfterColons cs = [] := by
  induction cs with
  | nil => rfl
  | cons c cs ih =>
    obtain ⟨hc, hcs⟩ := not_or.mp (mt List.mem_cons.mpr h)
    rw [namesAfterColons, if_neg (Ne.symm hc), ih hcs]

/-- A name has no colon in it. -/
private theorem IsNameSoFar.colon_not_mem {name : List Char} (h : IsNameSoFar name) : ':' ∉ name :=
  fun hmem => absurd (h.2 ':' hmem) (by decide)

/-- `nameAtFront` of a name is the name. -/
private theorem IsNameSoFar.nameAtFront_eq {name : List Char} (h : IsNameSoFar name) :
    nameAtFront name = if name = [] then none else some name := by
  cases name with
  | nil => rfl
  | cons c cs =>
    have hall : cs.takeWhile isNamePart = cs :=
      List.takeWhile_eq_self_iff.mpr fun d hd => h.2 d (List.mem_cons_of_mem c hd)
    rw [nameAtFront, if_pos (h.1 c rfl), hall, if_neg (List.cons_ne_nil c cs)]

/-- A name with a dollar sign after it is one, too. -/
private theorem IsNameSoFar.append_dollar {name : List Char} (h : IsNameSoFar name) :
    IsNameSoFar (name ++ ['$']) := by
  constructor
  · cases name with
    | nil =>
      intro c hc
      obtain rfl : '$' = c := by simpa using hc
      decide
    | cons d ds => exact h.1
  · intro c hc
    rcases List.mem_append.mp hc with hold | hlast
    · exact h.2 c hold
    · obtain rfl := List.mem_singleton.mp hlast
      decide

/-- `namesAfterColons` of a text that ends in a name: those in front of it and, unless it is empty,
the name. -/
private theorem namesAfterColons_endsInName (front : List Char) {name : List Char}
    (h : IsNameSoFar name) :
    namesAfterColons (front ++ ':' :: name) =
      namesAfterColons front ++ if name = [] then [] else [name] := by
  -- A colon is no part of a name, so the text can be cut before it.
  have hcolon : EndsName (':' :: name) := by
    intro c hc
    obtain rfl : ':' = c := by simpa using hc
    decide
  rw [namesAfterColons_append front hcolon, namesAfterColons, if_pos rfl, h.nameAtFront_eq,
    namesAfterColons_eq_nil h.colon_not_mem]
  split <;> rfl

/-- No text with a slash at the end `EndsInName`. -/
private theorem not_endsInName_append_slash (cs name : List Char) :
    ¬ EndsInName (cs ++ ['/']) name := by
  rintro ⟨hname, front, h⟩
  have hlast : '/' ∈ (':' :: name).getLast? := by
    rw [← List.getLast?_append_cons front, ← h, List.getLast?_concat]
    rfl
  rcases List.mem_cons.mp (List.mem_of_getLast? hlast) with hcolon | hmem
  · exact absurd hcolon (by decide)
  · exact absurd (hname.2 '/' hmem) (by decide)

/-- `namesAfterColons` with a dollar sign after a text that ends in a name: it becomes part of the
name. -/
private theorem namesAfterColons_endsInName_dollar (front : List Char) {name : List Char}
    (h : IsNameSoFar name) :
    namesAfterColons (front ++ ':' :: name ++ ['$']) =
      namesAfterColons front ++ [name ++ ['$']] := by
  have hnames := namesAfterColons_endsInName front h.append_dollar
  rw [List.append_assoc, List.cons_append, hnames, if_neg (by simp)]

/-- `nameAtFront` of a text that is not all one name ends before what is added at the end. -/
private theorem nameAtFront_append_dollar {cs : List Char} (h : ¬ IsNameSoFar cs) :
    nameAtFront (cs ++ ['$']) = nameAtFront cs := by
  cases cs with
  | nil => exact absurd ⟨by simp, by simp⟩ h
  | cons c cs =>
    rw [List.cons_append, nameAtFront, nameAtFront]
    by_cases hc : isNameStart c = true
    · -- Some character of the text is no part of a name, and the name at the front ends before it.
      have hsome : ∃ d ∈ cs, ¬ isNamePart d = true := by
        by_contra hall
        push Not at hall
        refine h ⟨by simpa using hc, fun d hd => ?_⟩
        rcases List.mem_cons.mp hd with rfl | hmem
        · rw [isNamePart, hc, Bool.true_or]
        · exact hall d hmem
      obtain ⟨d, hd, hpart⟩ := hsome
      have htake : (cs ++ ['$']).takeWhile isNamePart = cs.takeWhile isNamePart := by
        rw [List.takeWhile_append, if_neg]
        intro hall
        have hself := (List.takeWhile_prefix isNamePart).eq_of_length hall
        exact hpart (List.takeWhile_eq_self_iff.mp hself d hd)
      rw [if_pos hc, if_pos hc, htake]
    · rw [if_neg hc, if_neg hc]

/-- `namesAfterColons` with a dollar sign after any other text: no name changes. -/
private theorem namesAfterColons_append_dollar {cs : List Char} (h : ∀ name, ¬ EndsInName cs name) :
    namesAfterColons (cs ++ ['$']) = namesAfterColons cs := by
  induction cs with
  | nil => rfl
  | cons c cs ih =>
    have hrest : ∀ name, ¬ EndsInName cs name := by
      rintro name ⟨hname, front, rfl⟩
      exact h name ⟨hname, c :: front, rfl⟩
    rw [List.cons_append, namesAfterColons, namesAfterColons, ih hrest]
    by_cases hc : c = ':'
    · subst hc
      -- After a colon the rest is not all one name, or the text would end in it.
      have hnot : ¬ IsNameSoFar cs := fun hname => h cs ⟨hname, [], rfl⟩
      rw [nameAtFront_append_dollar hnot]
    · rw [if_neg hc, if_neg hc]

/-! ## Names around placeholders -/

/-- `namesAfterColons` around a placeholder: it ends every name that reaches its brace, and has no
name of its own. -/
theorem namesAfterColons_placeholder (cs ds : List Char) :
    namesAfterColons (cs ++ placeholder.toList ++ ds) =
      namesAfterColons (cs ++ ['$']) ++ namesAfterColons ds := by
  have hplaceholder : placeholder.toList = ['$'] ++ ['\x7b', '.', '.', '.', '\x7d'] := by decide
  have hbrace : EndsName (['\x7b', '.', '.', '.', '\x7d'] ++ ds) := by
    intro c hc
    obtain rfl : '\x7b' = c := by simpa using hc
    decide
  -- The text is cut between the dollar sign and the brace.
  have hsplit : cs ++ placeholder.toList ++ ds =
      cs ++ ['$'] ++ (['\x7b', '.', '.', '.', '\x7d'] ++ ds) := by
    rw [hplaceholder]
    simp only [List.append_assoc]
  rw [hsplit, namesAfterColons_append _ hbrace]
  rfl

/-- `namesAfterColons` of texts with placeholders between them. -/
theorem namesAfterColons_intercalate (heads : List (List Char)) (last : List Char) :
    namesAfterColons (placeholder.toList.intercalate (heads ++ [last])) =
      heads.flatMap (fun cs => namesAfterColons (cs ++ ['$'])) ++ namesAfterColons last := by
  induction heads with
  | nil => simp
  | cons cs rest ih =>
    obtain ⟨next, more, hne⟩ : ∃ next more, rest ++ [last] = next :: more :=
      List.exists_cons_of_ne_nil (by simp)
    rw [List.cons_append, hne, List.intercalate_cons_cons, namesAfterColons_placeholder, ← hne, ih,
      List.flatMap_cons, List.append_assoc]

/-- Counted in letters, placeholders make `namesAfterColons` longer, and only those that stand at
the end of a text. -/
private theorem length_names_le (heads : List (List Char)) :
    (heads.flatMap namesAfterColons).flatten.length ≤
        (heads.flatMap fun cs => namesAfterColons (cs ++ ['$'])).flatten.length ∧
      ((∃ cs ∈ heads, ∃ name, EndsInName cs name) →
        (heads.flatMap namesAfterColons).flatten.length <
        (heads.flatMap fun cs => namesAfterColons (cs ++ ['$'])).flatten.length) := by
  induction heads with
  | nil => simp
  | cons cs rest ih =>
    simp only [List.flatMap_cons, List.flatten_append, List.length_append]
    by_cases hcs : ∃ name, EndsInName cs name
    · obtain ⟨name, hname, front, rfl⟩ := hcs
      -- A text that ends in a name has one letter more, the dollar sign, whether the name is empty
      -- or not.
      have hone : (namesAfterColons (front ++ ':' :: name)).flatten.length + 1 =
          (namesAfterColons (front ++ ':' :: name ++ ['$'])).flatten.length := by
        rw [namesAfterColons_endsInName_dollar front hname, namesAfterColons_endsInName front hname]
        by_cases hempty : name = []
        · simp [hempty]
        · simp [hempty, Nat.add_assoc]
      constructor <;> omega
    · have hsame := namesAfterColons_append_dollar (not_exists.mp hcs)
      rw [hsame]
      refine ⟨by omega, ?_⟩
      rintro ⟨ds, hds, hopen⟩
      rcases List.mem_cons.mp hds with rfl | hmem
      · exact absurd hopen hcs
      · have := ih.2 ⟨ds, hmem, hopen⟩
        omega

end Url

/-! ## Routes -/

/-- `route?` declares the endpoint at the value of the first argument of the call. -/
private theorem Syntax.Node.endpoint_of_methodCall? {call first : Node} {property : String}
    {args : List Node} {r : Route} (hcall : call.methodCall? = some (property, first :: args))
    (hr : call.route? = some r) :
    ∃ method url, first.literalValue? = some url ∧ r.endpoint = .declare method url := by
  obtain ⟨found, hfound, h⟩ := Option.bind_eq_some_iff.mp hr
  obtain rfl := Option.some.inj (hcall.symm.trans hfound)
  obtain ⟨method, _, h⟩ := Option.bind_eq_some_iff.mp h
  cases args with
  | nil => exact nomatch h
  | cons handler more =>
    obtain ⟨url, hurl, h⟩ := Option.bind_eq_some_iff.mp h
    obtain ⟨_, _, h⟩ := Option.bind_eq_some_iff.mp h
    obtain rfl := Option.some.inj h
    exact ⟨method, url, hurl, rfl⟩

/-- `declare` gives an endpoint a required string for each parameter of its URL. -/
private theorem Endpoint.params_declare (method : Method) (url : String) :
    (declare method url).params = (Url.params url).map (⟨·, .string, true⟩) := by
  have hseeded : (declare method url).params = [] ++ _ :=
    mergeAbsent_map .string true (nodup_urlParams url)
  have hnone : (Url.params url).filter (fun n => ¬ Field.Listed n []) = Url.params url := by
    simp [Field.Listed]
  rw [hseeded, hnone, List.nil_append]

namespace Template

open Url

/-- No literal part that a substitution follows ends in a name that may go on. -/
def Closed (t : Template) : Prop := ∀ s ∈ t.heads, ∀ name, ¬ EndsInName s.toList name

/-- `namesAfterColons` of the value of a template, from its literal parts. -/
private theorem namesAfterColons_value (t : Template) :
    namesAfterColons t.value.toList =
      t.heads.flatMap (fun s => namesAfterColons (s ++ "$").toList) ++
        namesAfterColons t.last.toList := by
  rw [value, String.toList_intercalate, literals, List.map_append, List.map_singleton,
    namesAfterColons_intercalate, List.flatMap_map]
  simp only [String.toList_append]
  rfl

/-- `namesAfterColons` of the value are those of each literal part alone exactly if the template is
closed. -/
private theorem namesAfterColons_value_eq_iff (t : Template) :
    namesAfterColons t.value.toList = t.literals.flatMap (fun s => namesAfterColons s.toList) ↔
      t.Closed := by
  rw [namesAfterColons_value, literals, List.flatMap_append, List.flatMap_singleton,
    List.append_left_inj]
  constructor
  · -- A name that a placeholder makes longer cannot be made up for elsewhere.
    intro heq s hs name hname
    have hlonger := (length_names_le (t.heads.map String.toList)).2
      ⟨s.toList, List.mem_map_of_mem hs, name, hname⟩
    simp only [List.flatMap_map] at hlonger
    simp only [String.toList_append] at heq
    rw [← heq] at hlonger
    exact absurd hlonger (Nat.lt_irrefl _)
  · intro hclosed
    refine List.flatMap_congr fun s hs => ?_
    rw [String.toList_append]
    exact namesAfterColons_append_dollar (hclosed s hs)

/-- `params` of the value: what each literal part contributes is what it would contribute with a
dollar sign after it, if a substitution follows. -/
private theorem params_value (t : Template) :
    params t.value = (t.heads.flatMap (fun s => params (s ++ "$")) ++ params t.last).eraseDups := by
  -- Repetitions may go within the parts or at the end; what is left is the same.
  have hheads : (t.heads.flatMap fun s => params (s ++ "$")).eraseDups =
      ((t.heads.flatMap fun s => namesAfterColons (s ++ "$").toList).map
        String.ofList).eraseDups := by
    rw [List.map_flatMap]
    exact eraseDups_flatMap_eraseDups _ _
  have hlast : (params t.last).eraseDups = params t.last :=
    eraseDups_of_nodup (nodup_urlParams t.last)
  rw [← eraseDups_append_eraseDups, hheads, hlast]
  show _ = (_ ++ ((namesAfterColons t.last.toList).map String.ofList).eraseDups).eraseDups
  rw [eraseDups_append_eraseDups, ← List.map_append, ← namesAfterColons_value]
  rfl

/-- `params` of the value of a closed template are those of its literal parts. -/
private theorem params_value_of_closed {t : Template} (h : t.Closed) :
    params t.value = (t.literals.flatMap params).eraseDups := by
  have hnames := (namesAfterColons_value_eq_iff t).mpr h
  show ((namesAfterColons t.value.toList).map String.ofList).eraseDups = _
  rw [hnames, List.map_flatMap]
  exact (eraseDups_flatMap_eraseDups _ _).symm

/-- `params` of the value have a dollar sign after a name that a placeholder follows. -/
private theorem dollar_mem_params {t : Template} {s : String} (hs : s ∈ t.heads) {name : List Char}
    (hname : EndsInName s.toList name) : String.ofList (name ++ ['$']) ∈ params t.value := by
  obtain ⟨hsofar, front, hfront⟩ := hname
  have hfound : name ++ ['$'] ∈ namesAfterColons (s ++ "$").toList := by
    have hnames := namesAfterColons_endsInName_dollar front hsofar
    rw [← hfront] at hnames
    rw [String.toList_append]
    show _ ∈ namesAfterColons (s.toList ++ ['$'])
    rw [hnames]
    simp
  rw [params, List.mem_eraseDups, namesAfterColons_value]
  exact List.mem_map_of_mem (List.mem_append_left _ (List.mem_flatMap.mpr ⟨s, hs, hfound⟩))

/-- The parameters of a route whose URL is a template. Its endpoint is declared by `route?` at the
value of the template and has a required string for each of the `params` of the value. A
substitution counts as a dollar sign after the literal part in front of it: names are found as in
the literal parts alone exactly if none of these parts ends in a colon, or in a colon and a name,
and then the parameters are those of the literal parts. Otherwise a dollar sign is added to the
name. -/
theorem template_params (n : Node) (t : Template) (hn : n.IsTemplate t) :
    n.literalValue? = some t.value ∧
    (∀ (call : Node) (property : String) (args : List Node) (r : Route),
      call.methodCall? = some (property, n :: args) → call.route? = some r →
        r.endpoint.url = t.value ∧ r.endpoint.params = (params t.value).map (⟨·, .string, true⟩)) ∧
    params t.value = (t.heads.flatMap (fun s => params (s ++ "$")) ++ params t.last).eraseDups ∧
    (namesAfterColons t.value.toList = t.literals.flatMap (fun s => namesAfterColons s.toList) ↔
      t.Closed) ∧
    (t.Closed → params t.value = (t.literals.flatMap params).eraseDups) ∧
    ∀ s ∈ t.heads, ∀ name, EndsInName s.toList name →
      String.ofList (name ++ ['$']) ∈ params t.value := by
  refine ⟨hn.literalValue?_eq, ?_, t.params_value, t.namesAfterColons_value_eq_iff,
    params_value_of_closed,
    fun s hs name => dollar_mem_params hs⟩
  intro call property args r hcall hr
  obtain ⟨method, url, hurl, hendpoint⟩ := Node.endpoint_of_methodCall? hcall hr
  obtain rfl : t.value = url := Option.some.inj (hn.literalValue?_eq.symm.trans hurl)
  rw [hendpoint]
  exact ⟨rfl, Endpoint.params_declare method t.value⟩

end Template

namespace Syntax

/-- The call `app.get(url, h)` on one line, for a URL that starts at the eighth byte. -/
def registration (url : Node) : Node :=
  .onLine .callExpression none 0 (url.span.stop + 4) ("app.get(" ++ url.text ++ ", h)")
    [.onLine .memberExpression (some .function) 0 7 "app.get"
      [.onLine .identifier (some .object) 0 3 "app",
        .onLine .propertyIdentifier (some .property) 4 7 "get"],
     .onLine .arguments (some .arguments) 7 (url.span.stop + 4) ("(" ++ url.text ++ ", h)")
      [url, .onLine .identifier none (url.span.stop + 2) (url.span.stop + 3) "h"]]

/-- A template with a parameter on either side of its substitution. -/
def teamUrl : Node :=
  .onLine .templateString none 8 27 "`/:org/$\x7bteam\x7d/:id`"
    [.onLine .templateSubstitution none 15 22 "$\x7bteam\x7d"]

/-- The route with `teamUrl` has the two parameters, as the literal parts have them. -/
theorem teamUrl_params :
    let t : Template := ⟨[("/:org/", "$\x7bteam\x7d")], "/:id"⟩
    teamUrl.IsTemplate t ∧ t.Closed ∧
      ∃ r, (registration teamUrl).route? = some r ∧ r.endpoint.url = t.value ∧
        r.endpoint.params = (t.literals.flatMap Url.params).eraseDups.map (⟨·, .string, true⟩) ∧
        r.endpoint.params = [⟨"org", .string, true⟩, ⟨"id", .string, true⟩] := by
  intro t
  have hn : teamUrl.IsTemplate t := ⟨rfl, by decide, by decide, by decide⟩
  -- The literal part before the substitution ends in a slash.
  have hclosed : t.Closed := by
    intro s hs name
    obtain rfl : s = "/:org/" := List.mem_singleton.mp hs
    exact Url.not_endsInName_append_slash "/:org".toList name
  have hcall : (registration teamUrl).methodCall? =
      some ("get", teamUrl :: [.onLine .identifier none 29 30 "h"]) := rfl
  obtain ⟨r, hr⟩ : ∃ r, (registration teamUrl).route? = some r :=
    Option.isSome_iff_exists.mp (by decide +kernel)
  obtain ⟨_, hroutes, _, _, hparams, _⟩ := Template.template_params teamUrl t hn
  obtain ⟨hurl, hseeded⟩ := hroutes _ _ _ r hcall hr
  rw [hparams hclosed] at hseeded
  refine ⟨hn, hclosed, r, hr, hurl, hseeded, ?_⟩
  rw [hseeded]
  decide +kernel

/-- A template with a colon in front of its substitution. -/
def userUrl : Node :=
  .onLine .templateString none 8 23 "`/users/:$\x7bid\x7d`"
    [.onLine .templateSubstitution none 17 22 "$\x7bid\x7d"]

/-- A template with a name in front of its substitution. -/
def versionUrl : Node :=
  .onLine .templateString none 8 17 "`/:a$\x7bx\x7d`"
    [.onLine .templateSubstitution none 12 16 "$\x7bx\x7d"]

/-- With `userUrl` and `versionUrl` the substitution is a parameter itself, or a part of the name of
one; the literal parts have no parameter, or another one. -/
theorem placeholder_in_params :
    (userUrl.IsTemplate ⟨[("/users/:", "$\x7bid\x7d")], ""⟩ ∧
      (registration userUrl).route?.map (·.endpoint.params) = some [⟨"$", .string, true⟩] ∧
      (["/users/:", ""].flatMap Url.params).eraseDups = []) ∧
    versionUrl.IsTemplate ⟨[("/:a", "$\x7bx\x7d")], ""⟩ ∧
      (registration versionUrl).route?.map (·.endpoint.params) = some [⟨"a$", .string, true⟩] ∧
      (["/:a", ""].flatMap Url.params).eraseDups = ["a"] := by
  refine ⟨⟨⟨rfl, ?_, ?_, ?_⟩, ?_, ?_⟩, ⟨rfl, ?_, ?_, ?_⟩, ?_, ?_⟩
  all_goals decide +kernel

end Syntax

end RouteAtlas
