import NotebookLint.Text.Basic

/-!
# Names known everywhere

The keywords of the language, the names it predefines, the names a notebook kernel adds, and the
module aliases that notebook cells commonly use without importing them.
-/

set_option autoImplicit false

namespace NotebookLint.Names

def ofStrings (words : List String) : List Text :=
  words.map String.toList

def keywords : List Text :=
  ofStrings
    ["False", "None", "True", "and", "as", "assert", "async", "await", "break", "class",
      "continue", "def", "del", "elif", "else", "except", "finally", "for", "from", "global",
      "if", "import", "in", "is", "lambda", "nonlocal", "not", "or", "pass", "raise", "return",
      "try", "while", "with", "yield"]

def softKeywords : List Text :=
  ofStrings ["_", "case", "match"]

/-- Whether a word is reserved anywhere, so that it neither binds nor reads a name. -/
def isKeyword (word : Text) : Bool :=
  keywords.contains word || softKeywords.contains word

/-- The names that a method uses without binding them by an own statement. -/
def implicitNames : List Text :=
  ofStrings ["self", "cls"]

def builtinNames : List Text :=
  ofStrings
    ["ArithmeticError", "AssertionError", "AttributeError", "BaseException",
      "BaseExceptionGroup", "BlockingIOError", "BrokenPipeError", "BufferError", "BytesWarning",
      "ChildProcessError", "ConnectionAbortedError", "ConnectionError", "ConnectionRefusedError",
      "ConnectionResetError", "DeprecationWarning", "EOFError", "Ellipsis", "EncodingWarning",
      "EnvironmentError", "Exception", "ExceptionGroup", "False", "FileExistsError",
      "FileNotFoundError", "FloatingPointError", "FutureWarning", "GeneratorExit", "IOError",
      "ImportError", "ImportWarning", "IndentationError", "IndexError", "InterruptedError",
      "IsADirectoryError", "KeyError", "KeyboardInterrupt", "LookupError", "MemoryError",
      "ModuleNotFoundError", "NameError", "None", "NotADirectoryError", "NotImplemented",
      "NotImplementedError", "OSError", "OverflowError", "PendingDeprecationWarning",
      "PermissionError", "ProcessLookupError", "RecursionError", "ReferenceError",
      "ResourceWarning", "RuntimeError", "RuntimeWarning", "StopAsyncIteration", "StopIteration",
      "SyntaxError", "SyntaxWarning", "SystemError", "SystemExit", "TabError", "TimeoutError",
      "True", "TypeError", "UnboundLocalError", "UnicodeDecodeError", "UnicodeEncodeError",
      "UnicodeError", "UnicodeTranslateError", "UnicodeWarning", "UserWarning", "ValueError",
      "Warning", "ZeroDivisionError", "__build_class__", "__debug__", "__doc__", "__import__",
      "__loader__", "__name__", "__package__", "__spec__", "abs", "aiter", "all", "anext", "any",
      "ascii", "bin", "bool", "breakpoint", "bytearray", "bytes", "callable", "chr",
      "classmethod", "compile", "complex", "copyright", "credits", "delattr", "dict", "dir",
      "divmod", "enumerate", "eval", "exec", "exit", "filter", "float", "format", "frozenset",
      "getattr", "globals", "hasattr", "hash", "help", "hex", "id", "input", "int", "isinstance",
      "issubclass", "iter", "len", "license", "list", "locals", "map", "max", "memoryview", "min",
      "next", "object", "oct", "open", "ord", "pow", "print", "property", "quit", "range", "repr",
      "reversed", "round", "set", "setattr", "slice", "sorted", "staticmethod", "str", "sum",
      "super", "tuple", "type", "vars", "zip", "__file__", "__annotations__", "__builtins__",
      "__cached__"]

def notebookNames : List Text :=
  ofStrings ["display", "get_ipython", "In", "Out"]

/-- The aliases and modules that a cell commonly uses without importing them itself. -/
def commonAliases : List Text :=
  ofStrings
    ["pd", "np", "plt", "sns", "tf", "torch", "sklearn", "scipy", "cv2", "PIL", "os", "sys",
      "re", "json", "csv", "math", "random", "datetime", "time", "collections", "itertools",
      "functools", "pathlib", "glob", "shutil", "pickle", "warnings", "logging", "tqdm",
      "requests", "bs4", "selenium", "keras", "xgboost", "lightgbm", "catboost", "gc", "copy",
      "io", "struct", "typing", "subprocess", "threading", "multiprocessing", "queue", "asyncio"]

/-- The predefined names that a cell should not define anew. -/
def shadowableBuiltins : List Text :=
  ofStrings
    ["list", "dict", "set", "tuple", "str", "int", "float", "bool", "type", "object", "len",
      "range", "print", "input", "open", "id", "hash", "map", "filter", "zip", "enumerate",
      "sorted", "reversed", "sum", "min", "max", "abs", "round", "all", "any", "format", "repr",
      "ascii", "chr", "ord", "bin", "oct", "hex", "iter", "next", "slice", "super", "classmethod",
      "staticmethod", "property", "getattr", "setattr", "hasattr", "delattr", "isinstance",
      "issubclass", "callable", "compile", "eval", "exec", "globals", "locals", "vars", "dir",
      "help", "memoryview", "bytearray", "bytes", "complex", "divmod", "pow", "frozenset"]

end NotebookLint.Names
