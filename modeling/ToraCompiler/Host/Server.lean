import ToraCompiler.Text.Join

/-!
# The host side of a conversation

An interpreter that is to answer requests is started with a program of the host language.  It keeps one set
of global names, reads a request, executes the code in it while it gathers what the code prints, and sends
the reply.  An exception is told on the status line; its message is put on one line there.
-/

namespace ToraCompiler.Host

/-- The lines of the program that answers requests. -/
def serverLines : List String :=
  ["",
    "import contextlib, io, sys",
    "_globals = \x7b\"__name__\": \"__tora__\"\x7d",
    "_stdin = sys.stdin.buffer",
    "_stdout = sys.stdout.buffer",
    "while True:",
    "    header = _stdin.readline()",
    "    if not header:",
    "        break",
    "    code = _stdin.read(int(header)).decode(\"utf-8\")",
    "    captured = io.StringIO()",
    "    status = \"ok\"",
    "    try:",
    "        with contextlib.redirect_stdout(captured):",
    "            exec(compile(code, \"<tora>\", \"exec\"), _globals)",
    "    except Exception as exc:",
    "        status = \"err \" + \" \".join(str(exc).splitlines())",
    "    output = captured.getvalue().encode(\"utf-8\", \"replace\")",
    "    _stdout.write(b\"%d\\n\" % len(output) + output + status.encode(\"utf-8\", \"replace\") + b\"\\n\")",
    "    _stdout.flush()",
    ""]

/-- The arguments of an interpreter that is to answer requests: no buffers, and the program to run. -/
def serverArguments : List String :=
  ["-u", "-c", joinLines serverLines]

/-- The arguments of an interpreter that is to run the module on its input. -/
def moduleArguments : List String := ["-"]

end ToraCompiler.Host
