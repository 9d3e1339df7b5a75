import DesignSystem.Generator.Platform
import DesignSystem.Proofs.Component.Declarations
import DesignSystem.Proofs.Text.Split
import Mathlib.Data.List.Nodup

/-!
# Calls and signatures

Examples, previews and tests for native platforms call a component with named arguments. The
signature is made from all props, the arguments from some of them.

* `Platform.calls`: the calls that are written, each with the callback that it passes a closure for.
* `NativeCall.Gives`: which arguments such a call has.
* `NativeCall.Gives.fits_iff`, `NativeCall.Gives.inOrder_iff`: when it passes all required props,
  and when its arguments are in the order of the props.
* `Platform.calls_fit`: all of it for each call on each platform. `Platform.calls_fit_pressFirst` is
  a component with a test that calls it in another order.
-/

set_option autoImplicit false

namespace DesignSystem

/-! ## Calls that are written -/

/-- The names of the arguments. -/
def Call.names (c : Call) : List String := c.arguments.map (·.name)

/-- The identifiers that the signature of a component declares. -/
def ComponentModel.idents (m : ComponentModel) : List String := m.props.map (·.ident)

/-- A call passes each required prop once, no argument twice, and nothing but declared props. -/
structure Call.Fits (c : Call) (m : ComponentModel) : Prop where
  required : ∀ p ∈ m.props, p.required = true → c.names.count p.ident = 1
  nodup : c.names.Nodup
  declared : ∀ name ∈ c.names, name ∈ m.idents

/-- The arguments are in the order in which the props are declared. -/
def Call.InOrder (c : Call) (m : ComponentModel) : Prop := c.names.Sublist m.idents

/-- A text that calls a component. -/
inductive CallSite
  | source | usage | test | story

/-- A call of a component on a native platform. -/
structure NativeCall where
  site : CallSite
  call : Call
  /-- The callback that a closure is passed for. -/
  callback : Option PropModel

/-- The calls of a view. -/
def SwiftUI.calls (m : ComponentModel) : List NativeCall :=
  [⟨.source, exampleCall m, none⟩, ⟨.usage, exampleCall m, none⟩, ⟨.test, testCall m [], none⟩] ++
    (m.activation?.filter (·.type = "() -> Void")).toList.map fun p =>
      ⟨.test, testCall m [⟨p.ident, "\x7b fired = true \x7d"⟩], some p⟩

/-- The calls of a composable function. -/
def Compose.calls (m : ComponentModel) : List NativeCall :=
  [⟨.source, previewCall m, none⟩, ⟨.usage, exampleCall m, m.activation?⟩,
      ⟨.test, testCall m [], none⟩] ++
    (testedCallback? m).toList.map fun p =>
      ⟨.test, testCall m (closureArgument m "\x7b fired = true \x7d"), some p⟩

/-- The calls of a widget. -/
def Flutter.calls (m : ComponentModel) : List NativeCall :=
  [⟨.usage, exampleCall m, m.activation?⟩, ⟨.test, testCall m [], none⟩,
      ⟨.story, testCall m [], none⟩] ++
    m.activation?.toList.map fun p =>
      ⟨.test, testCall m (closureArgument m "() => calls++"), some p⟩

/-- The calls of a component with named arguments. -/
def Platform.calls : Platform → ComponentModel → List NativeCall
  | swiftUI => SwiftUI.calls
  | compose => Compose.calls
  | flutter => Flutter.calls
  | _ => fun _ => []

/-- A call as it is written on a platform. -/
def Platform.writeCall : Platform → Call → String
  | compose => Compose.write
  | _ => Call.render ": "

/-- The text of a component at a site. -/
def Generator.textAt (g : Generator) (m : ComponentModel) : CallSite → Option String
  | .source => g.source m
  | .usage => g.usage m
  | .test => (g.test m).map (·.content)
  | .story => (g.story m).map (·.content)

/-- A call is written at its site. -/
def Platform.Writes (p : Platform) (m : ComponentModel) (w : NativeCall) : Prop :=
  ∃ text, p.generator.textAt m w.site = some text ∧ (p.writeCall w.call).toList <:+: text.toList

/-! ## Arguments -/

/-- A prop that is passed its sample value when it is passed at all. -/
def PropModel.isSampled (p : PropModel) : Bool := p.isValue && p.sample.isSome

/-- The sampled props that a condition selects, and then the callback of a call. -/
def NativeCall.given (w : NativeCall) (m : ComponentModel) (f : PropModel → Bool) :
    List PropModel :=
  m.props.filter (fun p => p.isSampled && f p) ++ w.callback.toList

/-- The arguments of a call are for the props that it is given, the required ones among them, and
its callback is one of the component. -/
structure NativeCall.Gives (w : NativeCall) (m : ComponentModel) (f : PropModel → Bool) : Prop where
  required : ∀ p, p.required = true → f p = true
  names : w.call.names = (w.given m f).map (·.ident)
  callback : ∀ p ∈ w.callback, p ∈ m.props ∧ p.isCallback = true

theorem map_name_sampleArguments (props : List PropModel) :
    (ComponentModel.sampleArguments props).map (·.name) =
      (props.filter (·.sample.isSome)).map (·.ident) := by
  unfold ComponentModel.sampleArguments
  induction props with
  | nil => rfl
  | cons p props ih =>
    cases hsample : p.sample <;> simp_all [PropModel.argument?]

theorem filter_isSampled (f : PropModel → Bool) (props : List PropModel) :
    ((props.filter (·.isValue)).filter f).filter (·.sample.isSome) =
      props.filter fun p => p.isSampled && f p := by
  rw [List.filter_filter, List.filter_filter]
  refine List.filter_congr fun p _ => ?_
  show (p.sample.isSome && f p && p.isValue) = (p.isValue && p.sample.isSome && f p)
  rw [Bool.and_comm, Bool.and_assoc]

theorem map_name_selected (f : PropModel → Bool) (props : List PropModel) :
    (ComponentModel.sampleArguments ((props.filter (·.isValue)).filter f)).map (·.name) =
      (props.filter fun p => p.isSampled && f p).map (·.ident) := by
  rw [map_name_sampleArguments, filter_isSampled]

section
variable {m : ComponentModel}

theorem activation?_spec {p : PropModel} (h : p ∈ m.activation?) :
    p ∈ m.props ∧ p.isCallback = true := by
  refine ⟨List.mem_of_find?_eq_some h, ?_⟩
  have hp := List.find?_some h
  simp only [Bool.and_eq_true] at hp
  exact hp.1

theorem isShown_of_required {p : PropModel} (h : p.required = true) : p.isShown = true := by
  simp [PropModel.isShown, h]

/-- A call without a closure. -/
theorem gives_plain {site : CallSite} {callee : String} (f : PropModel → Bool)
    (hf : ∀ p, p.required = true → f p = true) :
    NativeCall.Gives ⟨site, ⟨callee, ComponentModel.sampleArguments (m.valueProps.filter f)⟩, none⟩
      m f where
  required := hf
  names := by
    unfold NativeCall.given
    rw [Option.toList_none, List.append_nil]
    exact map_name_selected f m.props
  callback := nofun

/-- A call with a closure for the callback for an activation. -/
theorem gives_closure {site : CallSite} {callee : String} (f : PropModel → Bool)
    (hf : ∀ p, p.required = true → f p = true) (closure : String) :
    NativeCall.Gives
      ⟨site, ⟨callee, ComponentModel.sampleArguments (m.valueProps.filter f) ++
        (m.activation?.map fun p => ⟨p.ident, closure⟩).toList⟩, m.activation?⟩ m f where
  required := hf
  names := by
    have hclosure : (m.activation?.map fun p => Argument.mk p.ident closure).toList.map (·.name) =
        m.activation?.toList.map (·.ident) := by
      cases m.activation? <;> rfl
    show List.map _ _ = _
    unfold NativeCall.given
    rw [List.map_append, List.map_append, hclosure]
    exact congrArg (· ++ _) (map_name_selected f m.props)
  callback _ hp := activation?_spec hp

end

/-- In a list without repetitions nothing stands on both sides of an element. -/
theorem not_sublist_of_sublist {α : Type} {x y : α} {l : List α} (hl : l.Nodup)
    (hxy : [x, y].Sublist l) : ¬ [y, x].Sublist l := by
  intro hyx
  induction l with
  | nil => cases hxy
  | cons a l ih =>
    obtain ⟨ha, hl⟩ := List.nodup_cons.1 hl
    cases hxy with
    | cons _ hxy =>
      cases hyx with
      | cons _ hyx => exact ih hl hxy hyx
      | cons_cons _ _ => exact ha (hxy.subset (by simp))
    | cons_cons _ hy =>
      have hy : y ∈ l := List.singleton_sublist.1 hy
      cases hyx with
      | cons _ hyx => exact ha (hyx.subset (by simp))
      | cons_cons _ _ => exact ha hy

namespace NativeCall.Gives

variable {w : NativeCall} {m : ComponentModel} {f : PropModel → Bool} (h : w.Gives m f)
include h

theorem mem_props {p : PropModel} (hp : p ∈ w.given m f) : p ∈ m.props := by
  rcases List.mem_append.1 hp with hp | hp
  · exact List.mem_of_mem_filter hp
  · exact (h.callback p (Option.mem_toList.1 hp)).1

theorem declared : ∀ name ∈ w.call.names, name ∈ m.idents := by
  intro name hname
  rw [h.names] at hname
  obtain ⟨p, hp, rfl⟩ := List.mem_map.1 hname
  exact List.mem_map_of_mem (h.mem_props hp)

theorem inOrder_of_none (hnone : w.callback = none) : w.call.InOrder m := by
  unfold Call.InOrder
  rw [h.names, NativeCall.given, hnone, Option.toList_none, List.append_nil]
  exact List.filter_sublist.map _

/-- The callback is not among the sampled props. -/
theorem isSampled_callback {p : PropModel} (hp : p ∈ w.callback) : p.isSampled = false := by
  simp [PropModel.isSampled, PropModel.isValue, (h.callback p hp).2]

section
variable (hidents : m.idents.Nodup)
include hidents

theorem nodup : w.call.names.Nodup := by
  have hprops : m.props.Nodup := List.Nodup.of_map _ hidents
  rw [h.names]
  refine List.Nodup.map_on (fun p hp q hq hident => ?_) (List.nodup_append.2 ⟨?_, ?_, ?_⟩)
  · exact List.inj_on_of_nodup_map hidents (h.mem_props hp) (h.mem_props hq) hident
  · exact hprops.filter _
  · cases w.callback <;> simp
  · rintro p hp q hq rfl
    have hsampled := List.of_mem_filter hp
    simp [h.isSampled_callback (Option.mem_toList.1 hq)] at hsampled

theorem ident_mem_iff {p : PropModel} (hp : p ∈ m.props) :
    p.ident ∈ w.call.names ↔ (p.isSampled = true ∧ f p = true) ∨ p ∈ w.callback := by
  have hgiven : p.ident ∈ w.call.names ↔ p ∈ w.given m f := by
    rw [h.names]
    refine ⟨fun hname => ?_, List.mem_map_of_mem⟩
    obtain ⟨q, hq, hident⟩ := List.mem_map.1 hname
    rwa [List.inj_on_of_nodup_map hidents hp (h.mem_props hq) hident.symm]
  simp [hgiven, hp, NativeCall.given]

/-- A call fits if the required props are sampled ones and the callback. -/
theorem fits_iff : w.call.Fits m ↔
    ∀ p ∈ m.props, p.required = true → p.isSampled = true ∨ p ∈ w.callback := by
  constructor
  · intro hfits p hp hrequired
    have hcount := hfits.required p hp hrequired
    have hname : p.ident ∈ w.call.names := List.count_pos_iff.1 (by omega)
    exact ((h.ident_mem_iff hidents hp).1 hname).imp_left And.left
  · intro hgiven
    refine ⟨fun p hp hrequired => ?_, h.nodup hidents, h.declared⟩
    refine List.count_eq_one_of_mem (h.nodup hidents) ((h.ident_mem_iff hidents hp).2 ?_)
    exact (hgiven p hp hrequired).imp_left fun hsampled => ⟨hsampled, h.required p hrequired⟩

/-- It is in order if nothing is passed that stands after the callback. -/
theorem inOrder_iff : w.call.InOrder m ↔
    ∀ p ∈ w.callback, ∀ q, [p, q].Sublist m.props → q.ident ∉ w.call.names := by
  constructor
  · intro horder p hp q hpq hname
    have hpq' : [p.ident, q.ident].Sublist m.idents := hpq.map _
    rcases (h.ident_mem_iff hidents (hpq.subset (by simp))).1 hname with hq | hq
    · have hmem : q ∈ m.props.filter fun p => p.isSampled && f p :=
        List.mem_filter.2 ⟨hpq.subset (by simp), by simp [hq]⟩
      have hqp : [q, p].Sublist (w.given m f) := by
        rw [NativeCall.given, Option.mem_def.1 hp]
        exact (List.singleton_sublist.2 hmem).append (.refl [p])
      have hqp' : [q.ident, p.ident].Sublist w.call.names := h.names ▸ hqp.map _
      exact not_sublist_of_sublist hidents hpq' (hqp'.trans horder)
    · obtain rfl := Option.mem_unique hp hq
      exact not_sublist_of_sublist hidents hpq' hpq'
  · intro hafter
    cases hcallback : w.callback with
    | none => exact h.inOrder_of_none hcallback
    | some p =>
      obtain ⟨before, after, hprops⟩ := List.append_of_mem (h.callback p hcallback).1
      have hnil : after.filter (fun p => p.isSampled && f p) = [] := by
        refine List.filter_eq_nil_iff.2 fun q hq hgiven => ?_
        have hpq : [p, q].Sublist m.props := by
          rw [hprops]
          exact .trans (.cons_cons p (List.singleton_sublist.2 hq)) (List.sublist_append_right _ _)
        refine hafter p hcallback q hpq ((h.ident_mem_iff hidents (hpq.subset (by simp))).2 ?_)
        exact .inl (by simpa using hgiven)
      unfold Call.InOrder ComponentModel.idents
      rw [h.names, NativeCall.given, hprops, hcallback, List.filter_append, List.filter_cons_of_neg
        (by simp [h.isSampled_callback hcallback]), hnil, List.append_nil, Option.toList_some]
      refine List.Sublist.map _ (List.filter_sublist.append ?_)
      exact .cons_cons p (List.nil_sublist after)

end

end NativeCall.Gives

/-! ## The calls of each platform -/

section
variable (m : ComponentModel)

theorem gives_shown (site : CallSite) (callee : String) :
    NativeCall.Gives ⟨site, ⟨callee, m.shownArguments⟩, none⟩ m (·.isShown) :=
  gives_plain _ fun _ => isShown_of_required

theorem gives_required (site : CallSite) (callee : String) :
    NativeCall.Gives ⟨site, ⟨callee, m.requiredArguments ++ []⟩, none⟩ m (·.required) := by
  rw [List.append_nil]
  exact gives_plain _ fun _ => id

theorem SwiftUI.forall_calls {P : NativeCall → Prop} (hpreview : P ⟨.source, exampleCall m, none⟩)
    (husage : P ⟨.usage, exampleCall m, none⟩) (htest : P ⟨.test, testCall m [], none⟩)
    (hactivation : ∀ p, m.activation?.filter (·.type = "() -> Void") = some p →
      P ⟨.test, testCall m [⟨p.ident, "\x7b fired = true \x7d"⟩], some p⟩) :
    ∀ w ∈ calls m, P w := by
  intro w hw
  rcases List.mem_append.1 hw with hw | hw
  · simp only [List.mem_cons, List.not_mem_nil, or_false] at hw
    rcases hw with rfl | rfl | rfl
    · exact hpreview
    · exact husage
    · exact htest
  · obtain ⟨p, hp, rfl⟩ := List.mem_map.1 hw
    exact hactivation p (Option.mem_toList.1 hp)

theorem Compose.forall_calls {P : NativeCall → Prop} (hpreview : P ⟨.source, previewCall m, none⟩)
    (husage : P ⟨.usage, exampleCall m, m.activation?⟩) (htest : P ⟨.test, testCall m [], none⟩)
    (hactivation : ∀ p, testedCallback? m = some p →
      P ⟨.test, testCall m (closureArgument m "\x7b fired = true \x7d"), some p⟩) :
    ∀ w ∈ calls m, P w := by
  intro w hw
  rcases List.mem_append.1 hw with hw | hw
  · simp only [List.mem_cons, List.not_mem_nil, or_false] at hw
    rcases hw with rfl | rfl | rfl
    · exact hpreview
    · exact husage
    · exact htest
  · obtain ⟨p, hp, rfl⟩ := List.mem_map.1 hw
    exact hactivation p (Option.mem_toList.1 hp)

theorem Flutter.forall_calls {P : NativeCall → Prop}
    (husage : P ⟨.usage, exampleCall m, m.activation?⟩) (htest : P ⟨.test, testCall m [], none⟩)
    (hstory : P ⟨.story, testCall m [], none⟩)
    (hactivation : ∀ p, m.activation? = some p →
      P ⟨.test, testCall m (closureArgument m "() => calls++"), some p⟩) :
    ∀ w ∈ calls m, P w := by
  intro w hw
  rcases List.mem_append.1 hw with hw | hw
  · simp only [List.mem_cons, List.not_mem_nil, or_false] at hw
    rcases hw with rfl | rfl | rfl
    · exact husage
    · exact htest
    · exact hstory
  · obtain ⟨p, hp, rfl⟩ := List.mem_map.1 hw
    exact hactivation p (Option.mem_toList.1 hp)

theorem SwiftUI.gives : ∀ w ∈ calls m, ∃ f, w.Gives m f := by
  apply forall_calls
  · exact ⟨_, gives_shown m _ _⟩
  · exact ⟨_, gives_shown m _ _⟩
  · exact ⟨_, gives_required m _ _⟩
  · intro p hp
    have hactivation : m.activation? = some p := (Option.filter_eq_some_iff.1 hp).1
    have hgives := @gives_closure m .test (viewName m) (·.required) (fun _ => id)
      "\x7b fired = true \x7d"
    rw [hactivation] at hgives
    exact ⟨_, hgives⟩

theorem Compose.gives : ∀ w ∈ calls m, ∃ f, w.Gives m f := by
  apply forall_calls
  · exact ⟨_, gives_shown m _ _⟩
  · exact ⟨_, gives_closure _ (fun _ => isShown_of_required) _⟩
  · exact ⟨_, gives_required m _ _⟩
  · intro p hp
    have hactivation : m.activation? = some p := (Option.filter_eq_some_iff.1 hp).1
    rw [← hactivation]
    exact ⟨_, gives_closure _ (fun _ => id) _⟩

theorem Flutter.gives : ∀ w ∈ calls m, ∃ f, w.Gives m f := by
  apply forall_calls
  · exact ⟨_, gives_closure _ (fun _ => isShown_of_required) _⟩
  · exact ⟨_, gives_required m _ _⟩
  · exact ⟨_, gives_required m _ _⟩
  · intro p hp
    rw [← hp]
    exact ⟨_, gives_closure _ (fun _ => id) _⟩

/-! ## Where they are written -/

theorem infix_after (before s : String) : s.toList <:+: (before ++ s).toList := by
  rw [String.toList_append]
  exact (List.suffix_append _ _).isInfix

theorem infix_between (before s after : String) : s.toList <:+: (before ++ s ++ after).toList := by
  rw [String.toList_append]
  exact (infix_after before s).trans (List.prefix_append _ _).isInfix

theorem infix_file {s line : String} {lines : List String} (hs : s.toList <:+: line.toList)
    (h : line ∈ lines) : s.toList <:+: (Text.file lines).toList := by
  refine hs.trans ((Text.infix_unlines h).trans ?_)
  rw [Text.file, String.toList_append]
  exact (List.prefix_append _ _).isInfix

theorem SwiftUI.writes : ∀ w ∈ calls m, Platform.swiftUI.Writes m w := by
  apply forall_calls
  · refine ⟨source m, rfl, infix_file (infix_after "    " _) ?_⟩
    show s!"    {write (exampleCall m)}" ∈ _
    simp only [List.mem_append, List.mem_cons, true_or, or_true]
  · exact ⟨_, rfl, List.infix_rfl⟩
  · refine ⟨_, rfl, infix_file (infix_between "        _ = " _ ".body") ?_⟩
    show s!"        _ = {write (testCall m [])}.body" ∈ _
    simp only [List.mem_append, List.mem_cons, true_or, or_true]
  · intro p hp
    refine ⟨_, rfl, infix_file (infix_after "        let view = " _) ?_⟩
    let call := testCall m [⟨p.ident, "\x7b fired = true \x7d"⟩]
    show s!"        let view = {write call}" ∈ _
    unfold activationTest
    rw [hp]
    simp only [call, List.mem_append, List.mem_cons, true_or, or_true]

/-- What stands before a call that a test shows. -/
def Compose.shows : String := "        composeTestRule.setContent \x7b "

theorem Compose.writes : ∀ w ∈ calls m, Platform.compose.Writes m w := by
  apply forall_calls
  · refine ⟨source m, rfl, infix_file (infix_after "    " _) ?_⟩
    show s!"    {write (previewCall m)}" ∈ _
    simp only [List.mem_append, List.mem_cons, true_or, or_true]
  · refine ⟨usage m, rfl, Text.infix_unlines ?_⟩
    show write (exampleCall m) ∈ _
    simp only [List.mem_cons, true_or, or_true]
  · refine ⟨_, rfl, infix_file (infix_between shows _ " \x7d") ?_⟩
    show contentLine (testCall m []) ∈ _
    simp only [List.mem_append, List.mem_cons, true_or, or_true]
  · intro p hp
    refine ⟨_, rfl, infix_file (infix_between shows _ " \x7d") ?_⟩
    show contentLine (testCall m (closureArgument m "\x7b fired = true \x7d")) ∈ _
    unfold activationTest
    rw [hp]
    simp only [List.mem_append, List.mem_cons, true_or, or_true]

/-- What stands before a call that a test shows. -/
def Flutter.shows : String := "    await tester.pumpWidget(MaterialApp(home: Scaffold(body: "

theorem Flutter.writes : ∀ w ∈ calls m, Platform.flutter.Writes m w := by
  apply forall_calls
  · refine ⟨usage m, rfl, Text.infix_unlines ?_⟩
    show write (exampleCall m) ∈ _
    simp only [List.mem_cons, true_or, or_true]
  · refine ⟨_, rfl, infix_file (infix_between shows _ ")));") ?_⟩
    show pumpLine (testCall m []) ∈ _
    simp only [List.mem_append, List.mem_cons, true_or, or_true]
  · refine ⟨_, rfl, infix_file (infix_between "  return " _ ";") ?_⟩
    show s!"  return {write (testCall m [])};" ∈ _
    simp only [List.mem_cons, true_or, or_true]
  · intro p hp
    refine ⟨_, rfl, infix_file (infix_between shows _ ")));") ?_⟩
    show pumpLine (testCall m (closureArgument m "() => calls++")) ∈ _
    unfold activationTest
    rw [hp]
    simp only [List.mem_append, List.mem_cons, true_or, or_true]

theorem Platform.calls_give (p : Platform) : ∀ w ∈ p.calls m, ∃ f, w.Gives m f := by
  cases p with
  | swiftUI => exact SwiftUI.gives m
  | compose => exact Compose.gives m
  | flutter => exact Flutter.gives m
  | _ => exact fun _ hw => absurd hw List.not_mem_nil

theorem Platform.calls_written (p : Platform) : ∀ w ∈ p.calls m, p.Writes m w := by
  cases p with
  | swiftUI => exact SwiftUI.writes m
  | compose => exact Compose.writes m
  | flutter => exact Flutter.writes m
  | _ => exact fun _ hw => absurd hw List.not_mem_nil

end

/-- **What a call passes.** The calls of a component pass only declared props, and those without a
closure pass them in order. Where all props have identifiers of their own, no argument is passed
twice. All required props are passed if they are plain props with a sample value, apart from the
callback that the closure is for; and the order is kept unless something is passed that is declared
after this callback. -/
theorem Platform.calls_fit (p : Platform) (m : ComponentModel) :
    ∀ w ∈ p.calls m, p.Writes m w ∧ (∀ name ∈ w.call.names, name ∈ m.idents) ∧
      (w.callback = none → w.call.InOrder m) ∧
      (m.idents.Nodup → w.call.names.Nodup ∧
        (w.call.Fits m ↔
          ∀ q ∈ m.props, q.required = true → q.isSampled = true ∨ q ∈ w.callback) ∧
        (w.call.InOrder m ↔
          ∀ q ∈ w.callback, ∀ x, [q, x].Sublist m.props → x.ident ∉ w.call.names)) := by
  intro w hw
  obtain ⟨f, hgives⟩ := Platform.calls_give m p w hw
  exact ⟨Platform.calls_written m p w hw, hgives.declared, hgives.inOrder_of_none, fun hidents =>
    ⟨hgives.nodup hidents, hgives.fits_iff hidents, hgives.inOrder_iff hidents⟩⟩

/-- A button with a label that tells when it is pressed. -/
def labelledButton : ComponentSpec where
  name := "Button"
  category := .interactive
  accessibility := { role := "button" }
  props := [("label", { descriptor := .primitive .string none, required := true }),
    ("on_press", { descriptor := .complex .function })]

theorem Platform.calls_fit_labelledButton : ∃ m, labelledButton.model .swiftUI {} = .ok m ∧
    m.idents.Nodup ∧ (Platform.swiftUI.calls m).map (·.call.names) =
      [["label"], ["label"], ["label"], ["label", "onPress"]] ∧
    ∀ w ∈ Platform.swiftUI.calls m, w.call.Fits m := by
  have hmodel : ((labelledButton.model .swiftUI {}).map fun m =>
      (m.idents, (Platform.swiftUI.calls m).map (·.call.names),
        m.props.all fun q => !q.required || q.isSampled)).toOption =
      some (["label", "onPress"], [["label"], ["label"], ["label"], ["label", "onPress"]],
        true) := by
    decide +kernel
  obtain ⟨m, hm, hdata⟩ := exists_of_map_eq hmodel
  obtain ⟨hidents, hdata⟩ := Prod.mk.inj hdata
  obtain ⟨hnames, hsampled⟩ := Prod.mk.inj hdata
  have hnodup : m.idents.Nodup := by
    rw [hidents]
    decide
  refine ⟨m, hm, hnodup, hnames, fun w hw => ?_⟩
  obtain ⟨-, -, -, hcalls⟩ := Platform.calls_fit .swiftUI m w hw
  refine (hcalls hnodup).2.1.2 fun q hq hrequired => .inl ?_
  simpa [hrequired] using List.all_eq_true.1 hsampled q hq

/-- A button that declares its callback before its label. -/
def pressFirst : ComponentSpec where
  name := "Button"
  category := .interactive
  accessibility := { role := "button" }
  props := [("on_press", { descriptor := .complex .function }),
    ("label", { descriptor := .primitive .string none, required := true })]

/-- The button passes validation, and a test calls it with the label first. -/
theorem Platform.calls_fit_pressFirst : pressFirst.error? = none ∧
    ∃ m, pressFirst.model .swiftUI {} = .ok m ∧ m.idents = ["onPress", "label"] ∧
      ∃ w ∈ Platform.swiftUI.calls m, w.call.names = ["label", "onPress"] ∧ ¬ w.call.InOrder m := by
  have hmodel : ((pressFirst.model .swiftUI {}).map fun m =>
      (m.idents, (Platform.swiftUI.calls m).map (·.call.names))).toOption =
      some (["onPress", "label"], [["label"], ["label"], ["label"], ["label", "onPress"]]) := by
    decide +kernel
  obtain ⟨m, hm, hdata⟩ := exists_of_map_eq hmodel
  obtain ⟨hidents, hnames⟩ := Prod.mk.inj hdata
  have hmem : ["label", "onPress"] ∈ (Platform.swiftUI.calls m).map (·.call.names) := by
    rw [hnames]
    decide
  obtain ⟨w, hw, hname⟩ := List.mem_map.1 hmem
  refine ⟨by decide +kernel, m, hm, hidents, w, hw, hname, fun horder => ?_⟩
  unfold Call.InOrder at horder
  rw [hname, hidents] at horder
  exact absurd horder (by decide)

end DesignSystem
