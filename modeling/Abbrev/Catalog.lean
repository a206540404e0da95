import Abbrev.Text.Basic

/-!
# The catalog of snippets

A catalog holds snippet sources under keys, each key once. In a source `$NAME$` is a tab stop,
`$END$` the final caret, `$ATTRS$` the place of the attributes that an abbreviation adds, and
`$SELECTION$` the place of wrapped text.
-/

namespace Abbrev

/-- Snippet sources by key. -/
structure Catalog where
  entries : List (Text × Text)

namespace Catalog

/-- The catalog without snippets. -/
def empty : Catalog :=
  ⟨[]⟩

/-- The snippet under a key. -/
def find? (catalog : Catalog) (key : Text) : Option Text :=
  catalog.entries.lookup key

/-- The keys of a catalog are those under which something is found. -/
theorem isSome_find?_iff {catalog : Catalog} {key : Text} :
    (catalog.find? key).isSome = true ↔ key ∈ catalog.entries.map Prod.fst := by
  rw [find?, List.lookup_isSome_iff, List.mem_map]
  constructor
  · intro ⟨entry, hentry, hkey⟩
    exact ⟨entry, hentry, (eq_of_beq hkey).symm⟩
  · intro ⟨entry, hentry, hkey⟩
    exact ⟨entry, hentry, beq_of_eq hkey.symm⟩

/-- The catalog with the snippet under `key` set to `source`. -/
def insert (catalog : Catalog) (key source : Text) : Catalog :=
  ⟨(key, source) :: catalog.entries.filter fun entry => entry.1 ≠ key⟩

/-- The keys that begin with `start`, in code point order. -/
def keysFrom (catalog : Catalog) (start : Text) : List Text :=
  Text.sortDistinct ((catalog.entries.map Prod.fst).filter start.isPrefixOf)

/-- The snippets at hand when no other catalog is given. -/
def builtIn : Catalog :=
  ⟨[
    ("a:link", "<a href=\"http://$END$\"$ATTRS$></a>"),
    ("a:mail", "<a href=\"mailto:$END$\"$ATTRS$></a>"),
    ("link:css",
      "<link rel=\"stylesheet\" type=\"text/css\" href=\"$END$style.css\" media=\"all\" />"),
    ("link:print",
      "<link rel=\"stylesheet\" type=\"text/css\" href=\"$END$print.css\" media=\"print\" />"),
    ("script:src", "<script type=\"text/javascript\" src=\"$src$\">$END$</script>"),
    ("form:get", "<form action=\"$action$\" method=\"get\">$END$</form>"),
    ("form:post", "<form action=\"$action$\" method=\"post\">$END$</form>"),
    ("input:hidden", "<input type=\"hidden\" name=\"$name$\"$ATTRS$ />"),
    ("input:text", "<input type=\"text\" name=\"$name$\" id=\"$id$\"$ATTRS$ />"),
    ("input:password", "<input type=\"password\" name=\"$name$\" id=\"$id$\"$ATTRS$ />"),
    ("input:submit", "<input type=\"submit\" value=\"$value$\"$ATTRS$ />"),
    ("cc:ie", "<!--[if IE]>\n\t$SELECTION$$END$\n<![endif]-->"),
    ("cc:noie", "<!--[if !IE]><!-->\n\t$SELECTION$$END$\n<!--<![endif]-->"),
    ("html:5",
      "<!DOCTYPE html>\n<html lang=\"$lang$\">\n<head>\n\t<meta charset=\"UTF-8\">\n" ++
      "\t<title>$title$</title>\n</head>\n<body>\n\t$END$\n</body>\n</html>"),
    ("ul+", "<ul>\n\t<li>$END$</li>\n</ul>"),
    ("ol+", "<ol>\n\t<li>$END$</li>\n</ol>"),
    ("dl+", "<dl>\n\t<dt>$dt$</dt>\n\t<dd>$END$</dd>\n</dl>"),
    ("table+", "<table>\n\t<tr>\n\t\t<td>$END$</td>\n\t</tr>\n</table>"),
    ("select+", "<select>\n\t<option value=\"$value$\">$END$</option>\n</select>")
  ].map fun entry => (entry.1.toList, entry.2.toList)⟩

end Catalog

end Abbrev
