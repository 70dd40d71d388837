/-!
# The bundled runtime class

The script that a bundle carries unless the configuration names a file of its own: it keeps the
registered keysets and answers look-ups and plural forms.
-/

namespace KeysetBundle.Artifact

/-- The lines of the bundled runtime class. -/
def bundledLines : List String :=
  [
    "(function () \x7b",
    "    var keysets = \x7b\x7d,",
    "        language = '';",
    "",
    "    function i18n(keyset, key, params) \x7b",
    "        var set = keysets[keyset],",
    "            value = set && set[key];",
    "",
    "        if (typeof value === 'function') \x7b",
    "            return value.call(i18n, params || \x7b\x7d);",
    "        \x7d",
    "        return typeof value === 'undefined' ? keyset + ':' + key : value;",
    "    \x7d",
    "",
    "    i18n.add = function (keyset, values) \x7b",
    "        var set = keysets[keyset] || (keysets[keyset] = \x7b\x7d);",
    "        for (var key in values) \x7b",
    "            if (Object.prototype.hasOwnProperty.call(values, key)) \x7b",
    "                set[key] = values[key];",
    "            \x7d",
    "        \x7d",
    "        return i18n;",
    "    \x7d;",
    "",
    "    i18n.setLanguage = function (lang) \x7b",
    "        language = lang;",
    "        return i18n;",
    "    \x7d;",
    "",
    "    i18n.getLanguage = function () \x7b",
    "        return language;",
    "    \x7d;",
    "",
    "    // one: 1, 21, 31...; some: 2-4, 22-24...; many: everything else.",
    "    i18n.plural = function (count, one, some, many, none) \x7b",
    "        var n = Math.abs(Number(count)),",
    "            mod10 = n % 10,",
    "            mod100 = n % 100;",
    "",
    "        if (n === 0 && typeof none !== 'undefined') \x7b",
    "            return none;",
    "        \x7d",
    "        if (mod10 === 1 && mod100 !== 11) \x7b",
    "            return one;",
    "        \x7d",
    "        if (mod10 >= 2 && mod10 <= 4 && (mod100 < 10 || mod100 >= 20)) \x7b",
    "            return some;",
    "        \x7d",
    "        return many;",
    "    \x7d;",
    "",
    "    return i18n;",
    "\x7d)();"]

/-- The text of the bundled runtime class; every line ends with a line feed. -/
def bundledClass : String :=
  String.join (bundledLines.map (· ++ "\n"))

/-- The version under which the bundled class is recorded. -/
def bundledVersion : String := "0.1.0"

end KeysetBundle.Artifact
