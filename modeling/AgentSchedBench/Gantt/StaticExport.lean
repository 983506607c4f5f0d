import AgentSchedBench.Library.HtmlComments
import AgentSchedBench.Library.HtmlRawTexts
import AgentSchedBench.Library.JsonText

/-!
# The page of an export

A snapshot is put into a page as JSON text in a script element, between the
style and the script of the frontend.  Texts are given by their characters.
-/

namespace AgentSchedBench.Gantt

open Html

/-! ## Escapes -/

/-- `html.escape(text)` -/
def htmlEscape (text : List Char) : List Char :=
  text.flatMap fun char =>
    if char = '&' then "&amp;".toList
    else if char = '<' then "&lt;".toList
    else if char = '>' then "&gt;".toList
    else if char = '"' then "&quot;".toList
    else if char = '\'' then "&#x27;".toList
    else [char]

/-- Does a pattern that ignores case take the character for the letter? -/
def ignoresCase (letter char : Char) : Bool :=
  char.toLower = letter ||
    (letter = 's' && char.toNat = 0x17f) ||
    (letter = 'i' && (char.toNat = 0x130 || char.toNat = 0x131)) ||
    (letter = 'k' && char.toNat = 0x212a)

/-- A character of a word; beyond ASCII it is for Unicode to say. -/
def isWordChar (unicodeWord : Char → Bool) (char : Char) : Bool :=
  if char.toNat < 128 then char.isAlphanum || char = '_' else unicodeWord char

/-- Does the text go on with the name of the tag, and a word end there? -/
def tagFollows (unicodeWord : Char → Bool) : List Char → List Char → Bool
  | [], rest => !(rest.head?.any (isWordChar unicodeWord))
  | letter :: tagName, char :: rest =>
      ignoresCase letter char && tagFollows unicodeWord tagName rest
  | _ :: _, [] => false

/-- `_escape_raw_text_closing_tag` -/
def escapeRawTextClosingTag (unicodeWord : Char → Bool) (tagName : List Char) :
    List Char → List Char
  | '<' :: '/' :: rest =>
      if tagFollows unicodeWord tagName rest then
        '<' :: '\\' :: '/' :: escapeRawTextClosingTag unicodeWord tagName rest
      else '<' :: '/' :: escapeRawTextClosingTag unicodeWord tagName rest
  | char :: rest => char :: escapeRawTextClosingTag unicodeWord tagName rest
  | [] => []

/-! ## The page -/

structure Frontend where
  style : List Char
  script : List Char

/-- The lines in front of the title. -/
def headLines : List (List Char) :=
  ["<!doctype html>".toList,
    "<html lang=\"en\">".toList,
    "  <head>".toList,
    "    <meta charset=\"UTF-8\" />".toList,
    "    <meta name=\"viewport\" content=\"width=device-width, initial-scale=1.0\" />".toList]

/-- The lines between the style and the snapshot. -/
def bodyLines : List (List Char) :=
  ["  </head>".toList,
    "  <body>".toList,
    "    <div id=\"root\"></div>".toList]

/-- The lines behind the script. -/
def lastLines : List (List Char) := ["  </body>".toList, "</html>".toList, []]

/-- `_render_html` -/
def renderHtml (unicodeWord : Char → Bool) (title : List Char) (snapshot : Json)
    (frontend : Frontend) : List Char :=
  let snapshotJson := escapeClosing (JsonText.dumps snapshot)
  let style := escapeRawTextClosingTag unicodeWord "style".toList frontend.style
  let script := escapeRawTextClosingTag unicodeWord "script".toList frontend.script
  List.intercalate ['\n']
    (headLines ++
      ["    <title>".toList ++ (htmlEscape title ++ "</title>".toList),
        "    <style>".toList ++ (style ++ "</style>".toList)] ++
      bodyLines ++
      ["    <script id=\"gantt-viewer-snapshot-bootstrap\" ".toList ++
          ("type=\"application/json\">".toList ++
            (snapshotJson ++ "</script>".toList)),
        "    <script type=\"module\">".toList ++ (script ++ "</script>".toList)] ++
      lastLines)

def bootstrapId : List Char := "gantt-viewer-snapshot-bootstrap".toList

/-- The start tag of the script of the frontend. -/
def moduleScript : Tag :=
  ⟨false, "script".toList, [("type".toList, "module".toList)]⟩

/-- What a parser finds in the page: the content of the bootstrap element is
read as the snapshot, and behind its end tag there is the start tag of the next
element. -/
def SnapshotSurvives (snapshot : Json) (page : List Char) : Prop :=
  ∃ content later,
    elementById bootstrapId (tokens page) =
        some (content, .tag endScript ::
          ("\n    ".toList.map .char ++ .tag moduleScript :: later)) ∧
      JsonText.loads content = some snapshot

/-! ## Parts of the page -/

def pageHead : List Char :=
  List.intercalate ['\n'] headLines ++ ('\n' :: "    <title>".toList)

def pageStyle : List Char := '\n' :: "    <style>".toList

def pageBody : List Char := '\n' :: (List.intercalate ['\n'] bodyLines ++ ['\n'])

/-- The start tag of the bootstrap element. -/
def bootstrapText : List Char :=
  "    <script id=\"gantt-viewer-snapshot-bootstrap\" ".toList ++
    "type=\"application/json\">".toList

def pageModule : List Char := '\n' :: "    <script type=\"module\">".toList

def pageEnd : List Char := '\n' :: List.intercalate ['\n'] lastLines

variable (unicodeWord : Char → Bool) (title : List Char) (snapshot : Json)
  (frontend : Frontend)

theorem joinLines_cons (line : List Char) {lines : List (List Char)}
    (more : lines ≠ []) :
    List.intercalate ['\n'] (line :: lines) =
      line ++ '\n' :: List.intercalate ['\n'] lines := by
  rw [List.intercalate_cons_of_ne_nil more, List.append_assoc]
  rfl

theorem joinLines_append {front back : List (List Char)} (some : front ≠ [])
    (more : back ≠ []) :
    List.intercalate ['\n'] (front ++ back) =
      List.intercalate ['\n'] front ++ '\n' :: List.intercalate ['\n'] back := by
  induction front with
  | nil => exact absurd rfl some
  | cons line front induction =>
      rw [List.cons_append]
      cases front with
      | nil =>
          rw [List.nil_append, joinLines_cons line more, List.intercalate_singleton]
      | cons next front =>
          rw [joinLines_cons line (by simp), induction (List.cons_ne_nil _ _),
            joinLines_cons line (List.cons_ne_nil _ _), List.append_assoc]
          rfl

/-- Lines with texts in four of them, as one text. -/
theorem joinLines_texts {head body last : List (List Char)} (someHead : head ≠ [])
    (someBody : body ≠ []) (someLast : last ≠ [])
    (a title a' b style b' c c' json d script d' : List Char) :
    List.intercalate ['\n']
        (head ++ [a ++ (title ++ a'), b ++ (style ++ b')] ++ body ++
          [c ++ (c' ++ (json ++ d')), d ++ (script ++ d')] ++ last) =
      (List.intercalate ['\n'] head ++ '\n' :: a) ++ (title ++ (a' ++
        (('\n' :: b) ++ (style ++ (b' ++
          (('\n' :: (List.intercalate ['\n'] body ++ ['\n'])) ++ ((c ++ c') ++
            (json ++ (d' ++ (('\n' :: d) ++ (script ++ (d' ++
              ('\n' :: List.intercalate ['\n'] last))))))))))))) := by
  rw [joinLines_append (by simp) someLast, joinLines_append (by simp) (by simp),
    joinLines_append (by simp) someBody, joinLines_append someHead (by simp),
    joinLines_cons _ (List.cons_ne_nil _ _), joinLines_cons _ (List.cons_ne_nil _ _),
    List.intercalate_singleton, List.intercalate_singleton]
  simp only [List.append_assoc, List.cons_append, List.nil_append]

theorem renderHtml_eq :
    renderHtml unicodeWord title snapshot frontend =
      pageHead ++ (htmlEscape title ++ ("</title>".toList ++
        (pageStyle ++
          (escapeRawTextClosingTag unicodeWord "style".toList frontend.style ++
            ("</style>".toList ++ (pageBody ++ (bootstrapText ++
              (escapeClosing (JsonText.dumps snapshot) ++ (endScriptText ++
                (pageModule ++
                  (escapeRawTextClosingTag unicodeWord "script".toList
                    frontend.script ++ (endScriptText ++ pageEnd)))))))))))) :=
  joinLines_texts (List.cons_ne_nil _ _) (List.cons_ne_nil _ _)
    (List.cons_ne_nil _ _) _ _ _ _ _ _ _ _ _ _ _ _

end AgentSchedBench.Gantt
