import PlayerAnimation.Manual

def main : IO Unit := IO.print PlayerAnimation.Manual.page
